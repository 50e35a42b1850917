/-
  Library/LinkedList.lean --- singly linked lists in a memory of next pointers.

  A memory maps a node to the node after it, `none` for a null pointer.  The
  lemmas say what writing the one or two pointers of an insertion or a removal
  does to the list of nodes.
-/
import Mathlib.Data.List.Chain
import Mathlib.Data.List.Nodup
import Mathlib.Logic.Relation

set_option autoImplicit false

namespace FlsunT1.Library

variable {α : Type*} {next : α → Option α} {x p q t : α} {l a b : List α}

/-- `Linked next l`: following the pointers from the head of `l` visits the nodes
of `l` in order and then ends. -/
def Linked (next : α → Option α) (l : List α) : Prop :=
  l.IsChain (fun x y => next x = some y) ∧ ∀ x ∈ l.getLast?, next x = none

namespace Linked

/-- Only the pointers of the nodes on the list matter. -/
theorem congr {next' : α → Option α} (h : Linked next l) (heq : ∀ x ∈ l, next' x = next x) :
    Linked next' l :=
  ⟨h.1.imp_of_mem_imp fun x y hx _ hxy => by rw [heq x hx, hxy],
    fun x hx => by rw [heq x (List.mem_of_getLast? hx), h.2 x hx]⟩

/-- The pointer between two neighbours. -/
theorem next_eq (h : Linked next (a ++ p :: q :: b)) : next p = some q :=
  (List.isChain_append_cons_cons.mp h.1).2.1

/-- What comes after a prefix is itself a linked list. -/
theorem suffix (h : Linked next (a ++ l)) : Linked next l := by
  refine ⟨h.1.right_of_append, fun x hx => h.2 x ?_⟩
  rw [List.getLast?_append, Option.mem_def.mp hx]
  rfl

theorem tail (h : Linked next (x :: l)) : Linked next l :=
  suffix (a := [x]) h

theorem cons_cons : Linked next (p :: q :: l) ↔ next p = some q ∧ Linked next (q :: l) := by
  simp only [Linked, List.isChain_cons_cons, List.getLast?_cons_cons, and_assoc]

/-- The last node has a null pointer. -/
theorem next_last (h : Linked next (a ++ [x])) : next x = none :=
  h.2 x (by simp)

/-- Two linked lists may be joined at a node. -/
theorem join (hpre : (a ++ [p]).IsChain fun x y => next x = some y) (hq : next p = some q)
    (hpost : Linked next (q :: b)) : Linked next (a ++ p :: q :: b) := by
  refine ⟨List.isChain_append_cons_cons.mpr ⟨hpre, hq, hpost.1⟩, ?_⟩
  intro x hx
  refine hpost.2 x ?_
  rw [List.getLast?_append, List.getLast?_cons_cons] at hx
  cases hlast : (q :: b).getLast? with
  | none => simp at hlast
  | some y => rw [hlast] at hx; exact hx

/-- Only the pointers before the last node matter to a path. -/
theorem path_congr {next' : α → Option α} (h : (a ++ [p]).IsChain fun x y => next x = some y)
    (heq : ∀ x ∈ a, next' x = next x) : (a ++ [p]).IsChain fun x y => next' x = some y := by
  obtain ⟨hpre, -, hlast⟩ := List.isChain_append.mp h
  refine List.isChain_append.mpr ⟨?_, List.isChain_singleton _, ?_⟩
  · exact hpre.imp_of_mem_imp fun x y hx _ hxy => by rw [heq x hx, hxy]
  · intro x hx y hy
    rw [heq x (List.mem_of_getLast? hx), hlast x hx y hy]

variable [DecidableEq α]

/-- Inserting `t` between `p` and `q` writes two pointers. -/
theorem insert (h : Linked next (a ++ p :: q :: b))
    (hnodup : (a ++ p :: q :: b).Nodup) (ht : t ∉ a ++ p :: q :: b) :
    Linked (Function.update (Function.update next t (some q)) p (some t))
      (a ++ p :: t :: q :: b) := by
  obtain ⟨-, hnodup', hdisj⟩ := List.nodup_append.mp hnodup
  have hpt : t ≠ p := fun heq => ht (by simp [heq])
  have hkeep : ∀ y ∈ a ++ p :: q :: b, y ≠ p →
      Function.update (Function.update next t (some q)) p (some t) y = next y := by
    intro y hy hyp
    have hyt : y ≠ t := fun heq => ht (heq ▸ hy)
    simp [hyp, hyt]
  refine join ?_ (by simp) ?_
  · refine path_congr (List.isChain_append_cons_cons.mp h.1).1 fun y hy => ?_
    exact hkeep y (by simp [hy]) (hdisj y hy p (by simp))
  · refine cons_cons.mpr ⟨by simp [hpt], ?_⟩
    refine (suffix (a := a ++ [p]) (by simpa using h)).congr fun y hy => ?_
    refine hkeep y (List.mem_append_right _ (List.mem_cons_of_mem _ hy)) fun heq => ?_
    exact (List.nodup_cons.mp hnodup').1 (heq ▸ hy)

/-- A new node may take the place of the first one. -/
theorem replace_head (h : Linked next (p :: l)) (ht : t ∉ l) :
    Linked (Function.update next t (next p)) (t :: l) := by
  have hl : Linked (Function.update next t (next p)) l := h.tail.congr fun y hy => by
    have hyt : y ≠ t := fun heq => ht (heq ▸ hy)
    simp [hyt]
  cases l with
  | nil => exact ⟨List.isChain_singleton _, by simpa using h.next_last (a := [])⟩
  | cons q l => exact cons_cons.mpr ⟨by simpa using (cons_cons.mp h).1, hl⟩

/-- A new node may be put in front. -/
theorem push (h : Linked next (p :: l)) (ht : t ∉ p :: l) :
    Linked (Function.update next t (some p)) (t :: p :: l) := by
  refine cons_cons.mpr ⟨by simp, h.congr fun y hy => ?_⟩
  have hyt : y ≠ t := fun heq => ht (heq ▸ hy)
  simp [hyt]

/-- Removing `t` after `p` writes one pointer. -/
theorem remove (h : Linked next (a ++ p :: t :: b))
    (hnodup : (a ++ p :: t :: b).Nodup) :
    Linked (Function.update next p (next t)) (a ++ p :: b) := by
  obtain ⟨-, hnodup', hdisj⟩ := List.nodup_append.mp hnodup
  have hp := (List.nodup_cons.mp hnodup').1
  have hpath : (a ++ [p]).IsChain fun x y => Function.update next p (next t) x = some y := by
    refine path_congr (List.isChain_append_cons_cons.mp h.1).1 fun y hy => ?_
    simp [hdisj y hy p (by simp)]
  have hpost : Linked (Function.update next p (next t)) b := by
    refine (suffix (a := a ++ [p, t]) (by simpa using h)).congr fun y hy => ?_
    have hyp : y ≠ p := fun heq => hp (by simp [← heq, hy])
    simp [hyp]
  cases b with
  | nil =>
    refine ⟨hpath, fun y hy => ?_⟩
    simp only [List.getLast?_append, List.getLast?_singleton, Option.some_or, Option.mem_def,
      Option.some.injEq] at hy
    subst hy
    simpa using next_last (a := a ++ [p]) (by simpa using h)
  | cons q b =>
    refine join hpath ?_ hpost
    simpa using next_eq (a := a ++ [p]) (p := t) (q := q) (by simpa using h)

/-- A new node may be put in front of a list that may be empty. -/
theorem push_head (h : Linked next l) (ht : t ∉ l) :
    Linked (Function.update next t l.head?) (t :: l) := by
  cases l with
  | nil => exact ⟨List.isChain_singleton _, by simp⟩
  | cons p l => exact h.push ht

omit [DecidableEq α] in
theorem nil : Linked next [] :=
  ⟨List.isChain_nil, by simp⟩

omit [DecidableEq α] in
/-- The first node points to the node behind it. -/
theorem next_head (h : Linked next (x :: l)) : next x = l.head? := by
  cases l with
  | nil => exact h.next_last (a := [])
  | cons q l => exact (cons_cons.mp h).1

omit [DecidableEq α] in
/-- The nodes that the pointers lead to are those on the list. -/
theorem reaches_iff (h : Linked next (x :: l)) {y : α} :
    Relation.ReflTransGen (fun a b => next a = some b) x y ↔ y ∈ x :: l := by
  constructor
  · intro hreach
    induction l generalizing x with
    | nil =>
      rcases hreach.cases_head with rfl | ⟨z, hz, -⟩
      · exact List.mem_cons_self
      · rw [h.next_head] at hz
        cases hz
    | cons q l ih =>
      rcases hreach.cases_head with rfl | ⟨z, hz, hrest⟩
      · exact List.mem_cons_self
      · rw [h.next_head, List.head?_cons, Option.some.injEq] at hz
        exact List.mem_cons_of_mem _ (ih h.tail (hz ▸ hrest))
  · intro hmem
    induction l generalizing x with
    | nil => rw [List.mem_singleton.mp hmem]
    | cons q l ih =>
      rcases List.mem_cons.mp hmem with rfl | hmem
      · exact .refl
      · exact .head h.next_head (ih h.tail hmem)

end Linked

/-! ## Several lists in one memory -/

variable {ι : Type*} {heads : ι → Option α} {L : ι → List α} {i j : ι}

/-- From the head of each list the pointers lead through it, and no node is on two lists. -/
structure LinkedLists (heads : ι → Option α) (next : α → Option α) (L : ι → List α) : Prop where
  head : ∀ i, heads i = (L i).head?
  linked : ∀ i, Linked next (L i)
  nodup : ∀ i, (L i).Nodup
  apart : ∀ i j x, x ∈ L i → x ∈ L j → i = j

namespace LinkedLists

/-- What a walk from a head visits. -/
theorem reaches_iff (h : LinkedLists heads next L) :
    (∃ p, heads i = some p ∧ Relation.ReflTransGen (fun a b => next a = some b) p x) ↔
      x ∈ L i := by
  rw [h.head]
  have hlinked := h.linked i
  cases hl : L i with
  | nil => simp
  | cons q l =>
    rw [hl] at hlinked
    simp only [List.head?_cons, Option.some.injEq, exists_eq_left']
    exact hlinked.reaches_iff

variable [DecidableEq ι]

/-- The nodes behind the removal of the first node of a list. -/
theorem mem_pop (h : LinkedLists heads next L) (hi : L i = x :: l) {y : α} :
    y ∈ Function.update L i l j ↔ y ≠ x ∧ y ∈ L j := by
  have hnodup := h.nodup i
  rw [hi, List.nodup_cons] at hnodup
  by_cases hij : j = i
  · rw [hij, Function.update_self, hi, List.mem_cons]
    refine ⟨fun hy => ⟨fun heq => hnodup.1 (heq ▸ hy), Or.inr hy⟩, ?_⟩
    rintro ⟨hne, heq | hy⟩
    · exact absurd heq hne
    · exact hy
  · rw [Function.update_of_ne hij]
    refine ⟨fun hy => ⟨fun heq => hij ?_, hy⟩, fun hy => hy.2⟩
    exact h.apart j i y hy (by rw [hi, heq]; exact List.mem_cons_self)

variable [DecidableEq α]

/-- The first node of a list is taken off, and its pointer is cleared. -/
theorem pop (h : LinkedLists heads next L) (hi : L i = x :: l) :
    LinkedLists (Function.update heads i (next x)) (Function.update next x none)
      (Function.update L i l) where
  head j := by
    have hlinked := h.linked i
    by_cases hij : j = i
    · rw [hi] at hlinked
      rw [hij, Function.update_self, Function.update_self, hlinked.next_head]
    · rw [Function.update_of_ne hij, Function.update_of_ne hij, h.head]
  linked j := by
    have hkeep : Linked next (Function.update L i l j) := by
      by_cases hij : j = i
      · have hlinked := h.linked i
        rw [hi] at hlinked
        rw [hij, Function.update_self]
        exact hlinked.tail
      · rw [Function.update_of_ne hij]
        exact h.linked j
    exact hkeep.congr fun y hy => Function.update_of_ne ((h.mem_pop hi).mp hy).1 _ _
  nodup j := by
    by_cases hij : j = i
    · have hnodup := h.nodup i
      rw [hi] at hnodup
      rw [hij, Function.update_self]
      exact hnodup.of_cons
    · rw [Function.update_of_ne hij]
      exact h.nodup j
  apart j k y hj hk := h.apart j k y ((h.mem_pop hi).mp hj).2 ((h.mem_pop hi).mp hk).2

omit [DecidableEq α] in
theorem mem_push {y : α} :
    y ∈ Function.update L i (x :: L i) j ↔ (y = x ∧ j = i) ∨ y ∈ L j := by
  by_cases hij : j = i
  · rw [hij, Function.update_self, List.mem_cons, eq_self, and_true]
  · rw [Function.update_of_ne hij, or_iff_right fun hy => hij hy.2]

/-- A node that is on no list is put in front of one. -/
theorem push (h : LinkedLists heads next L) (hx : ∀ j, x ∉ L j) :
    LinkedLists (Function.update heads i (some x)) (Function.update next x (heads i))
      (Function.update L i (x :: L i)) where
  head j := by
    by_cases hij : j = i
    · rw [hij, Function.update_self, Function.update_self, List.head?_cons]
    · rw [Function.update_of_ne hij, Function.update_of_ne hij, h.head]
  linked j := by
    by_cases hij : j = i
    · rw [hij, Function.update_self, h.head]
      exact (h.linked i).push_head (hx i)
    · rw [Function.update_of_ne hij]
      refine (h.linked j).congr fun y hy => Function.update_of_ne (fun heq => ?_) _ _
      rw [heq] at hy
      exact hx j hy
  nodup j := by
    by_cases hij : j = i
    · rw [hij, Function.update_self]
      exact List.nodup_cons.mpr ⟨hx i, h.nodup i⟩
    · rw [Function.update_of_ne hij]
      exact h.nodup j
  apart j k y hj hk := by
    rcases mem_push.mp hj with ⟨hyx, hji⟩ | hj'
    · rcases mem_push.mp hk with ⟨-, hki⟩ | hk'
      · rw [hji, hki]
      · exact absurd (hyx ▸ hk') (hx k)
    · rcases mem_push.mp hk with ⟨hyx, -⟩ | hk'
      · exact absurd (hyx ▸ hj') (hx j)
      · exact h.apart j k y hj' hk'

end LinkedLists

end FlsunT1.Library
