/-
  Library/MinHeap.lean --- replacing the root of a binary heap.

  A heap is a list in level order.  A child that is missing reads as `top`, the
  largest value, so that the sift-down loop needs no case for the end of the
  list.  The loop is proved to keep the order and to leave the same elements,
  with the root replaced by the new one.
-/
import Mathlib.Data.List.Basic
import Mathlib.Order.Basic
import Mathlib.Tactic.Order

set_option autoImplicit false

namespace FlsunT1.Library.MinHeap

variable {α : Type*} [LinearOrder α] {top x : α} {heap : List α} {pos c i : Nat}

/-- What is read at a position; `top` behind the end. -/
def read (top : α) (heap : List α) (i : Nat) : α := heap.getD i top

/-- The sift-down loop, which has at most one round for each element.  The new
element `x` goes into the hole at `pos`, or the smaller child does. -/
def siftDown (top x : α) : Nat → Nat → List α → Option (List α)
  | 0, _, _ => none
  | rounds + 1, pos, heap =>
      let child2 := read top heap (2 * pos + 2)
      let child1 := read top heap (2 * pos + 1)
      if x ≤ child1 ∧ x ≤ child2 then some (heap.set pos x)
      else if child1 < child2 then siftDown top x rounds (2 * pos + 1) (heap.set pos child1)
      else siftDown top x rounds (2 * pos + 2) (heap.set pos child2)

/-- `c` is a child of `i`. -/
def Child (i c : Nat) : Prop := c = 2 * i + 1 ∨ c = 2 * i + 2

/-- Every element is at least its parent. -/
def Ordered (f : Nat → α) : Prop := ∀ i c, Child i c → f i ≤ f c

/-- A list of elements up to `top` in heap order. -/
structure IsHeap (top : α) (heap : List α) : Prop where
  ordered : Ordered (read top heap)
  le_top : ∀ x ∈ heap, x ≤ top

/-- Only the element at `pos` may be too large for its place. -/
structure Sinking (f : Nat → α) (pos : Nat) : Prop where
  off : ∀ i c, Child i c → i ≠ pos → f i ≤ f c
  grand : ∀ i c, Child i pos → Child pos c → f i ≤ f c

theorem Child.parent {i j c : Nat} (h : Child i c) (h' : Child j c) : i = j := by
  unfold Child at h h'
  omega

theorem Child.lt (h : Child i c) : i < c := by
  unfold Child at h
  omega

/-! ## Reading -/

omit [LinearOrder α] in
theorem read_of_lt (h : i < heap.length) : read top heap i = heap[i] := by
  rw [read, List.getD_eq_getElem?_getD, List.getElem?_eq_getElem h]
  rfl

omit [LinearOrder α] in
theorem read_of_le (h : heap.length ≤ i) : read top heap i = top := by
  rw [read, List.getD_eq_getElem?_getD, List.getElem?_eq_none h]
  rfl

theorem lt_length_of_read (h : read top heap i < top) : i < heap.length := by
  by_contra hge
  rw [read_of_le (not_lt.mp hge)] at h
  exact lt_irrefl _ h

omit [LinearOrder α] in
theorem read_set (h : pos < heap.length) :
    read top (heap.set pos x) = Function.update (read top heap) pos x := by
  funext i
  by_cases hi : i = pos
  · subst hi
    rw [Function.update_self, read_of_lt (by rw [List.length_set]; exact h), List.getElem_set_self]
  · rw [Function.update_of_ne hi]
    simp only [read, List.getD_eq_getElem?_getD, List.getElem?_set_ne (Ne.symm hi)]

/-- The root of a heap is its least element. -/
theorem IsHeap.root_le (h : IsHeap top heap) (hx : x ∈ heap) : read top heap 0 ≤ x := by
  have hroot : ∀ i, read top heap 0 ≤ read top heap i := by
    intro i
    induction i using Nat.strong_induction_on with
    | _ i ih =>
      rcases Nat.eq_zero_or_pos i with rfl | hpos
      · exact le_refl _
      · have hparent : Child ((i - 1) / 2) i := by unfold Child; omega
        exact le_trans (ih _ hparent.lt) (h.ordered _ _ hparent)
  obtain ⟨i, hi, rfl⟩ := List.getElem_of_mem hx
  have hread : read top heap i = heap[i] := read_of_lt hi
  rw [← hread]
  exact hroot i

/-- Equal elements are a heap. -/
theorem isHeap_replicate {n : Nat} {a : α} (ha : a ≤ top) :
    IsHeap top (List.replicate n a) where
  ordered := by
    intro i c hc
    have hlt := hc.lt
    by_cases hn : c < n
    · rw [read_of_lt (by rw [List.length_replicate]; omega),
        read_of_lt (by rw [List.length_replicate]; omega), List.getElem_replicate,
        List.getElem_replicate]
    · rw [read_of_le (i := c) (by rw [List.length_replicate]; omega)]
      by_cases hi : i < n
      · rw [read_of_lt (by rw [List.length_replicate]; omega), List.getElem_replicate]
        exact ha
      · rw [read_of_le (by rw [List.length_replicate]; omega)]
  le_top := by
    intro x hx
    rw [(List.mem_replicate.mp hx).2]
    exact ha

/-! ## One round -/

section Round

variable {f : Nat → α}

/-- The element stays where it is not larger than a child. -/
theorem Sinking.done (h : Sinking f pos) (hle : ∀ c, Child pos c → f pos ≤ f c) : Ordered f := by
  intro i c hc
  by_cases hi : i = pos
  · subst hi
    exact hle c hc
  · exact h.off i c hc hi

/-- The element sinks below its smaller child `c`. -/
theorem Sinking.sink (h : Sinking f pos) (hc : Child pos c) (hlt : f c < f pos)
    (hmin : ∀ d, Child pos d → f c ≤ f d) :
    Sinking (Function.update (Function.update f pos (f c)) c (f pos)) c := by
  have hne : c ≠ pos := Nat.ne_of_gt hc.lt
  have hpos : Function.update (Function.update f pos (f c)) c (f pos) pos = f c := by
    rw [Function.update_of_ne hne.symm, Function.update_self]
  have hother : ∀ i, i ≠ c → i ≠ pos →
      Function.update (Function.update f pos (f c)) c (f pos) i = f i := fun i hic hip => by
    rw [Function.update_of_ne hic, Function.update_of_ne hip]
  constructor
  · intro i d hd hi
    by_cases hip : i = pos
    · subst hip
      rw [hpos]
      by_cases hdc : d = c
      · subst hdc
        rw [Function.update_self]
        exact le_of_lt hlt
      · rw [hother d hdc (Nat.ne_of_gt hd.lt)]
        exact hmin d hd
    · rw [hother i hi hip]
      have hdc : d ≠ c := fun heq => hip (Child.parent (heq ▸ hd) hc)
      by_cases hdp : d = pos
      · subst hdp
        rw [hpos]
        exact h.grand i c hd hc
      · rw [hother d hdc hdp]
        exact h.off i d hd hip
  · intro i d hic hcd
    have hi : i = pos := Child.parent hic hc
    have hdlt := hcd.lt
    have hclt := hc.lt
    subst hi
    rw [hpos, hother d (by omega) (by omega)]
    exact h.off c d hcd hne

end Round

omit [LinearOrder α] in
/-- The elements after a round are those with the new one in the hole. -/
theorem set_set_perm (hpos : pos < heap.length) (hc : c < heap.length) (hne : c ≠ pos) :
    ((heap.set pos (read top heap c)).set c x).Perm (heap.set pos x) := by
  have hperm := List.set_set_perm (show pos < (heap.set pos x).length by simpa using hpos)
    (show c < (heap.set pos x).length by simpa using hc)
  rw [List.set_set, List.getElem_set_self, List.getElem_set_ne (Ne.symm hne)] at hperm
  rw [read_of_lt hc]
  exact hperm

/-- The loop ends with a heap of the elements, the new one in place of the hole. -/
theorem siftDown_spec (hx : x ≤ top) :
    ∀ (rounds pos : Nat) (heap : List α), pos < heap.length → heap.length ≤ pos + rounds →
      Sinking (Function.update (read top heap) pos x) pos →
      ∃ heap', siftDown top x rounds pos heap = some heap' ∧
        Ordered (read top heap') ∧ heap'.Perm (heap.set pos x) := by
  intro rounds
  induction rounds with
  | zero => intro pos heap hpos hlen; omega
  | succ rounds ih =>
    intro pos heap hpos hlen hsink
    have hself : Function.update (read top heap) pos x pos = x := Function.update_self ..
    have hchild : ∀ c, Child pos c → Function.update (read top heap) pos x c = read top heap c :=
      fun c hc => Function.update_of_ne (Nat.ne_of_gt hc.lt) _ _
    have hleft : Child pos (2 * pos + 1) := .inl rfl
    have hright : Child pos (2 * pos + 2) := .inr rfl
    -- the element sinks to the smaller child `c`
    have hdown : ∀ c, Child pos c → read top heap c < x →
        (∀ d, Child pos d → read top heap c ≤ read top heap d) →
        ∃ heap', siftDown top x rounds c (heap.set pos (read top heap c)) = some heap' ∧
          Ordered (read top heap') ∧ heap'.Perm (heap.set pos x) := by
      intro c hc hlt hmin
      have hclen : c < heap.length := lt_length_of_read (lt_of_lt_of_le hlt hx)
      have hclt := hc.lt
      have hsink' := hsink.sink hc (by rw [hchild c hc, hself]; exact hlt) fun d hd => by
        rw [hchild c hc, hchild d hd]
        exact hmin d hd
      rw [hself, hchild c hc, Function.update_idem] at hsink'
      obtain ⟨heap', hrun, hord, hperm⟩ := ih c (heap.set pos (read top heap c))
        (by rw [List.length_set]; exact hclen) (by rw [List.length_set]; omega)
        (by rw [read_set hpos]; exact hsink')
      exact ⟨heap', hrun, hord, hperm.trans (set_set_perm hpos hclen (Nat.ne_of_gt hclt))⟩
    simp only [siftDown]
    split
    · rename_i hstop
      refine ⟨_, rfl, ?_, .refl _⟩
      rw [read_set hpos]
      refine hsink.done fun c hc => ?_
      rw [hself, hchild c hc]
      rcases hc with rfl | rfl
      · exact hstop.1
      · exact hstop.2
    · rename_i hgo
      split
      · rename_i hlt
        refine hdown _ hleft ?_ ?_
        · by_contra hle
          exact hgo ⟨not_lt.mp hle, le_of_lt (lt_of_le_of_lt (not_lt.mp hle) hlt)⟩
        · rintro d (rfl | rfl)
          · exact le_refl _
          · exact le_of_lt hlt
      · rename_i hle
        refine hdown _ hright ?_ ?_
        · by_contra hlt
          exact hgo ⟨le_trans (not_lt.mp hlt) (not_lt.mp hle), not_lt.mp hlt⟩
        · rintro d (rfl | rfl)
          · exact not_lt.mp hle
          · exact le_refl _

/-- Replacing the root of a heap. -/
theorem IsHeap.replace (h : IsHeap top heap) (hne : heap ≠ []) (hx : x ≤ top) :
    ∃ heap', siftDown top x heap.length 0 heap = some heap' ∧ IsHeap top heap' ∧
      heap'.Perm (heap.set 0 x) := by
  have hlen : 0 < heap.length := List.length_pos_iff.mpr hne
  have hsink : Sinking (Function.update (read top heap) 0 x) 0 := by
    constructor
    · intro i c hc hi
      have hlt := hc.lt
      rw [Function.update_of_ne hi, Function.update_of_ne (by omega)]
      exact h.ordered i c hc
    · intro i c hi
      exact absurd hi.lt (Nat.not_lt_zero i)
  obtain ⟨heap', hrun, hord, hperm⟩ := siftDown_spec hx heap.length 0 heap hlen (by omega) hsink
  refine ⟨heap', hrun, ⟨hord, fun y hy => ?_⟩, hperm⟩
  rcases List.mem_or_eq_of_mem_set (hperm.mem_iff.mp hy) with hmem | rfl
  · exact h.le_top y hmem
  · exact hx

end FlsunT1.Library.MinHeap
