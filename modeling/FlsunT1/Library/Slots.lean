/-
  Library/Slots.lean --- a pool of slots that become free at known times.

  Each use takes a slot that is free the earliest and tells when it is free
  again.  Uses start in order: one that could start before the use ahead of it
  waits for that one.  However the free times lie, no more uses are in progress
  at any time than there are slots.  A binary heap of the free times serves the
  pool.
-/
import FlsunT1.Library.MinHeap
import FlsunT1.Library.Run
import Mathlib.Data.List.Perm.Basic

set_option autoImplicit false

namespace FlsunT1.Library

variable {α : Type*} [LinearOrder α]

/-- A use of a slot, from the time its slot is free to the time it is free again. -/
structure Use (α : Type*) where
  start : α
  free : α
  deriving DecidableEq, Repr

/-- A use takes a slot that is free the earliest. -/
def Take (slots : List α) (u : Use α) (slots' : List α) : Prop :=
  ∃ k, slots[k]? = some u.start ∧ (∀ s ∈ slots, u.start ≤ s) ∧ slots' = slots.set k u.free

/-- The uses with the times they start at, none before the one ahead of it. -/
def inOrder (uses : List (Use α)) : List (Use α) :=
  uses.foldl (fun out u =>
    out ++ [match out.getLast? with
      | none => u
      | some last => { u with start := max last.start u.start }]) []

/-- The number of uses in progress at the time `t`. -/
def occupied (t : α) (uses : List (Use α)) : Nat :=
  (inOrder uses).countP fun u => decide (u.start ≤ t ∧ t < u.free)

/-- Taking a slot adds none. -/
theorem Take.length_eq {slots slots' : List α} {uses : List (Use α)}
    (h : Run Take slots uses slots') : slots'.length = slots.length := by
  refine h.invariant (P := fun s => s.length = slots.length) rfl ?_
  rintro s u s' hs ⟨k, -, -, rfl⟩
  rw [List.length_set, hs]

/-- One use more. -/
theorem inOrder_snoc (uses : List (Use α)) (u : Use α) :
    inOrder (uses ++ [u]) = inOrder uses ++
      [match (inOrder uses).getLast? with
        | none => u
        | some last => { u with start := max last.start u.start }] := by
  simp [inOrder]

omit [LinearOrder α] in
/-- Counting after one slot changes, when the slot did not count before. -/
theorem countP_set {p : α → Bool} :
    ∀ (l : List α) (k : Nat) (a b : α), l[k]? = some a → p a = false →
      (l.set k b).countP p = l.countP p + if p b then 1 else 0 := by
  intro l
  induction l with
  | nil => intro k a b h; simp at h
  | cons x l ih =>
    intro k a b h hp
    cases k with
    | zero =>
      simp only [List.getElem?_cons_zero, Option.some.injEq] at h
      subst h
      simp [List.countP_cons, hp]
    | succ k =>
      rw [List.getElem?_cons_succ] at h
      rw [List.set_cons_succ, List.countP_cons, List.countP_cons, ih k a b h hp]
      omega

/-- In every run, no more uses are in progress than there are slots. -/
theorem occupied_le {slots slots' : List α} {uses : List (Use α)} (h : Run Take slots uses slots')
    (t : α) : occupied t uses ≤ slots.length := by
  -- as long as no use starts after `t`, each use in progress has a slot of its own
  suffices hinv : occupied t uses ≤ slots.length ∧
      ((∀ u ∈ (inOrder uses).getLast?, u.start ≤ t) →
        occupied t uses ≤ slots'.countP fun s => decide (t < s)) from hinv.1
  induction h with
  | nil => exact ⟨Nat.zero_le _, fun _ => Nat.zero_le _⟩
  | @snoc slots1 slots2 uses u hrun htake ih =>
    obtain ⟨hle, hslots⟩ := ih
    obtain ⟨k, hk, -, rfl⟩ := htake
    have hlen := Take.length_eq hrun
    have hcount : ∀ v : Use α, v.free = u.free → (u.start ≤ v.start) →
        (v.start ≤ t → ∀ w ∈ (inOrder uses).getLast?, w.start ≤ t) →
        ((inOrder uses ++ [v]).countP fun u => decide (u.start ≤ t ∧ t < u.free)) ≤ slots.length ∧
        (v.start ≤ t → ((inOrder uses ++ [v]).countP fun u => decide (u.start ≤ t ∧ t < u.free)) ≤
          (slots1.set k u.free).countP fun s => decide (t < s)) := by
      intro v hfree hstart hlast
      rw [List.countP_append, List.countP_singleton, hfree]
      by_cases hv : v.start ≤ t
      · have hold := hslots (hlast hv)
        have hset := countP_set (p := fun s => decide (t < s)) slots1 k u.start u.free hk
          (decide_eq_false (not_lt.mpr (le_trans hstart hv)))
        have hbound := List.countP_le_length (l := slots1.set k u.free)
          (p := fun s => decide (t < s))
        rw [List.length_set, hlen] at hbound
        unfold occupied at hold
        simp only [hv, true_and, forall_true_left]
        constructor <;> omega
      · unfold occupied at hle
        simp only [hv, false_and, decide_false, Bool.false_eq_true, if_false, Nat.add_zero,
          false_implies, and_true]
        exact hle
    unfold occupied
    rw [inOrder_snoc]
    simp only [List.getLast?_append, List.getLast?_singleton, Option.some_or, Option.mem_def,
      Option.some.injEq, forall_eq']
    cases hlast : (inOrder uses).getLast? with
    | none => exact hcount u rfl (le_refl _) (by rw [hlast]; simp)
    | some last =>
      refine hcount _ rfl (le_max_right _ _) ?_
      rw [hlast]
      intro hle w hw
      rw [Option.mem_def, Option.some.injEq] at hw
      exact hw ▸ le_trans (le_max_left _ _) hle

/-- A heap of the free times serves the slots. -/
theorem MinHeap.IsHeap.take {top x : α} {heap slots : List α} (h : MinHeap.IsHeap top heap)
    (hne : heap ≠ []) (hx : x ≤ top) (hperm : heap.Perm slots) :
    ∃ heap' slots', MinHeap.siftDown top x heap.length 0 heap = some heap' ∧
      MinHeap.IsHeap top heap' ∧
      Take slots { start := MinHeap.read top heap 0, free := x } slots' ∧ heap'.Perm slots' := by
  obtain ⟨heap', hrun, hheap, hperm'⟩ := h.replace hne hx
  obtain ⟨root, rest, rfl⟩ := List.exists_cons_of_ne_nil hne
  obtain ⟨k, hk, hget⟩ := List.getElem_of_mem (hperm.mem_iff.mp List.mem_cons_self)
  refine ⟨heap', slots.set k x, hrun, hheap, ⟨k, ?_, ?_, rfl⟩, ?_⟩
  · rw [List.getElem?_eq_getElem hk, hget]
    rfl
  · intro s hs
    exact h.root_le (hperm.mem_iff.mpr hs)
  · have hrest : rest.Perm (slots.eraseIdx k) := by
      refine (List.perm_cons root).mp (hperm.trans ?_)
      rw [← hget]
      exact (List.getElem_cons_eraseIdx_perm hk).symm
    refine hperm'.trans ?_
    rw [List.set_cons_zero]
    refine ((List.perm_cons x).mpr hrest).trans ?_
    exact (List.set_perm_cons_eraseIdx hk x).symm

end FlsunT1.Library
