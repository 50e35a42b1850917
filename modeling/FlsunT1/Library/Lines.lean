/-
  Library/Lines.lean --- text as lines that end with a separator.

  A text is cut at every separator; what follows the last one is its tail.  The
  facts here relate the lines of a text to those of its parts, so that a reader
  which takes the text in blocks can be compared with the text as a whole.
-/
import Mathlib.Data.List.Basic

set_option autoImplicit false

namespace FlsunT1.Library

variable {α : Type*}

/-- The text of lines, each followed by the separator. -/
def joinLines (sep : α) (ls : List (List α)) : List α := ls.flatMap (· ++ [sep])

@[simp]
theorem joinLines_nil (sep : α) : joinLines sep [] = [] := rfl

@[simp]
theorem joinLines_cons (sep : α) (l : List α) (ls : List (List α)) :
    joinLines sep (l :: ls) = l ++ sep :: joinLines sep ls := by
  simp [joinLines]

@[simp]
theorem joinLines_append (sep : α) (ls ls' : List (List α)) :
    joinLines sep (ls ++ ls') = joinLines sep ls ++ joinLines sep ls' := by
  simp [joinLines]

section Split

variable [DecidableEq α] {sep : α}

/-- The lines of a text that end with the separator. -/
def linesOf (sep : α) (t : List α) : List (List α) := (t.splitOn sep).dropLast

/-- What follows the last separator. -/
def tailOf (sep : α) (t : List α) : List α := (t.splitOn sep).getLastD []

/-- The pieces of a text are its lines and its tail. -/
theorem splitOn_eq (t : List α) : t.splitOn sep = linesOf sep t ++ [tailOf sep t] := by
  have hne : t.splitOn sep ≠ [] := List.splitOn_ne_nil sep t
  rw [linesOf, tailOf, List.getLastD_eq_getLast?, List.getLast?_eq_some_getLast hne]
  exact (List.dropLast_concat_getLast hne).symm

theorem splitOn_cons (a : α) (t : List α) :
    (a :: t).splitOn sep =
      if a = sep then [] :: t.splitOn sep else (t.splitOn sep).modifyHead (a :: ·) := by
  rw [List.splitOn_cons_eq_if_modifyHead]
  simp only [beq_iff_eq]

/-- The separator is in no piece of a text. -/
theorem not_mem_of_mem_splitOn {t l : List α} (h : l ∈ t.splitOn sep) : sep ∉ l := by
  induction t generalizing l with
  | nil =>
    rw [List.splitOn_nil, List.mem_singleton] at h
    simp [h]
  | cons a t ih =>
    rw [splitOn_cons] at h
    split at h
    · rcases List.mem_cons.mp h with rfl | h
      · exact List.not_mem_nil
      · exact ih h
    · rename_i hne
      obtain ⟨p, ps, hps⟩ := List.exists_cons_of_ne_nil (List.splitOn_ne_nil sep t)
      rw [hps, List.modifyHead_cons] at h
      rw [hps] at ih
      rcases List.mem_cons.mp h with rfl | h
      · rw [List.mem_cons, not_or]
        exact ⟨fun hsep => hne hsep.symm, ih List.mem_cons_self⟩
      · exact ih (List.mem_cons_of_mem _ h)

theorem not_mem_of_mem_linesOf {t l : List α} (h : l ∈ linesOf sep t) : sep ∉ l :=
  not_mem_of_mem_splitOn (List.dropLast_subset _ h)

theorem not_mem_tailOf (t : List α) : sep ∉ tailOf sep t := by
  apply not_mem_of_mem_splitOn (t := t)
  rw [splitOn_eq]
  exact List.mem_append_right _ List.mem_cons_self

/-- The pieces of a text that goes on, when it begins without a separator. -/
theorem splitOn_append {p : List α} (hp : sep ∉ p) (t : List α) :
    (p ++ t).splitOn sep = (t.splitOn sep).modifyHead (p ++ ·) := by
  induction p with
  | nil =>
    obtain ⟨q, qs, hqs⟩ := List.exists_cons_of_ne_nil (List.splitOn_ne_nil sep t)
    rw [List.nil_append, hqs]
    rfl
  | cons a p ih =>
    rw [List.mem_cons, not_or] at hp
    rw [List.cons_append, splitOn_cons, if_neg (fun h => hp.1 h.symm), ih hp.2,
      List.modifyHead_modifyHead]
    rfl

/-- A line is found at the front of a text. -/
theorem splitOn_line {l : List α} (hl : sep ∉ l) (t : List α) :
    (l ++ sep :: t).splitOn sep = l :: t.splitOn sep := by
  rw [splitOn_append hl, splitOn_cons, if_pos rfl, List.modifyHead_cons, List.append_nil]

theorem linesOf_line {l : List α} (hl : sep ∉ l) (t : List α) :
    linesOf sep (l ++ sep :: t) = l :: linesOf sep t := by
  rw [linesOf, splitOn_line hl, List.dropLast_cons_of_ne_nil (List.splitOn_ne_nil sep t), linesOf]

theorem splitOn_joinLines {ls : List (List α)} (h : ∀ l ∈ ls, sep ∉ l) (t : List α) :
    (joinLines sep ls ++ t).splitOn sep = ls ++ t.splitOn sep := by
  induction ls with
  | nil => rfl
  | cons l ls ih =>
    rw [joinLines_cons, List.append_assoc, List.cons_append, splitOn_line (h l List.mem_cons_self),
      ih fun l' hl' => h l' (List.mem_cons_of_mem l hl'), List.cons_append]

/-- The lines of a text behind a piece that may have several lines itself. -/
theorem linesOf_append (l t : List α) :
    linesOf sep (l ++ sep :: t) = l.splitOn sep ++ linesOf sep t := by
  rw [linesOf, List.splitOn_append_cons_self, linesOf,
    List.dropLast_append_of_ne_nil (List.splitOn_ne_nil sep t)]

/-- The lines of lines and of what follows them. -/
theorem linesOf_joinLines {ls : List (List α)} (h : ∀ l ∈ ls, sep ∉ l) (t : List α) :
    linesOf sep (joinLines sep ls ++ t) = ls ++ linesOf sep t := by
  induction ls with
  | nil => rfl
  | cons l ls ih =>
    rw [joinLines_cons, List.append_assoc, List.cons_append,
      linesOf_line (h l List.mem_cons_self), ih (fun l' hl' => h l' (List.mem_cons_of_mem _ hl')),
      List.cons_append]

/-- A text without a separator has no line. -/
theorem linesOf_eq_nil {t : List α} (h : sep ∉ t) : linesOf sep t = [] := by
  have hsplit := splitOn_append h []
  rw [List.append_nil] at hsplit
  rw [linesOf, hsplit]
  rfl

/-- A text is its lines and its tail. -/
theorem joinLines_linesOf (t : List α) : joinLines sep (linesOf sep t) ++ tailOf sep t = t := by
  induction t with
  | nil => rfl
  | cons a t ih =>
    have hpieces : (a :: t).splitOn sep = linesOf sep (a :: t) ++ [tailOf sep (a :: t)] :=
      splitOn_eq (a :: t)
    rw [splitOn_cons, splitOn_eq t] at hpieces
    split at hpieces
    · rename_i ha
      rw [← List.cons_append] at hpieces
      obtain ⟨hlines, htail⟩ := List.append_inj' hpieces rfl
      rw [← hlines, ← List.singleton_inj.mp htail, joinLines_cons, ha, List.nil_append,
        List.cons_append, ih]
    · cases hlines : linesOf sep t with
      | nil =>
        rw [hlines, List.nil_append, List.modifyHead_cons] at hpieces
        obtain ⟨hnil, htail⟩ := List.append_inj' ((List.nil_append _).trans hpieces) rfl
        rw [← hnil, ← List.singleton_inj.mp htail]
        rw [hlines] at ih
        exact congrArg (List.cons a) ih
      | cons l ls =>
        rw [hlines, List.cons_append, List.modifyHead_cons, ← List.cons_append] at hpieces
        obtain ⟨hcons, htail⟩ := List.append_inj' hpieces rfl
        rw [← hcons, ← List.singleton_inj.mp htail]
        rw [hlines] at ih
        rw [joinLines_cons, List.cons_append, List.cons_append]
        rw [joinLines_cons] at ih
        exact congrArg (List.cons a) ih

/-- The pieces of a text that goes on are its lines and the pieces of its tail that goes on. -/
theorem splitOn_append_tail (t data : List α) :
    (t ++ data).splitOn sep = linesOf sep t ++ (tailOf sep t ++ data).splitOn sep := by
  rw [← splitOn_joinLines fun _ hl => not_mem_of_mem_linesOf hl, ← List.append_assoc,
    joinLines_linesOf]

/-- The lines of a text that goes on, and what follows the last of them. -/
theorem linesOf_append_tail (t data : List α) :
    linesOf sep (t ++ data) = linesOf sep t ++ linesOf sep (tailOf sep t ++ data) ∧
      tailOf sep (t ++ data) = tailOf sep (tailOf sep t ++ data) := by
  have h : (t ++ data).splitOn sep = _ := splitOn_append_tail t data
  rw [splitOn_eq (t ++ data), splitOn_eq (tailOf sep t ++ data), ← List.append_assoc] at h
  obtain ⟨hlines, htail⟩ := List.append_inj' h rfl
  exact ⟨hlines, List.singleton_inj.mp htail⟩

/-- The lines of a text that goes on, when it begins without a separator. -/
theorem linesOf_append_of_not_mem {p : List α} (hp : sep ∉ p) (t : List α) :
    linesOf sep (p ++ t) = (linesOf sep t).modifyHead (p ++ ·) := by
  rw [linesOf, splitOn_append hp, splitOn_eq t]
  cases linesOf sep t with
  | nil => rfl
  | cons l ls =>
    rw [List.cons_append, List.modifyHead_cons, List.modifyHead_cons, ← List.cons_append,
      List.dropLast_concat]

/-- What follows lines and has no separator is the tail. -/
theorem tailOf_joinLines_append {ls : List (List α)} (h : ∀ l ∈ ls, sep ∉ l) {t : List α}
    (ht : sep ∉ t) : tailOf sep (joinLines sep ls ++ t) = t := by
  have hsplit := splitOn_append ht []
  rw [List.append_nil, List.splitOn_nil, List.modifyHead_cons, List.append_nil] at hsplit
  rw [tailOf, splitOn_joinLines h, hsplit, List.getLastD_concat]

/-- A text ends with the separator, unless it is empty, when nothing follows its lines. -/
theorem tailOf_eq_nil_iff {t : List α} :
    tailOf sep t = [] ↔ t = [] ∨ t.getLast? = some sep := by
  constructor
  · intro h
    have ht : joinLines sep (linesOf sep t) ++ tailOf sep t = t := joinLines_linesOf t
    rw [h, List.append_nil] at ht
    cases hlines : (linesOf sep t).reverse with
    | nil =>
      left
      rw [List.reverse_eq_nil_iff] at hlines
      rw [← ht, hlines, joinLines_nil]
    | cons l ls =>
      right
      rw [List.reverse_eq_cons_iff] at hlines
      rw [← ht, hlines]
      simp [joinLines]
  · intro h
    by_contra hne
    have ht : joinLines sep (linesOf sep t) ++ tailOf sep t = t := joinLines_linesOf t
    rcases h with h | h
    · rw [h] at hne
      exact hne rfl
    · rw [← ht, List.getLast?_append_of_ne_nil _ hne] at h
      exact not_mem_tailOf t (List.mem_of_getLast? h)

end Split

/-! ## Patterns without the separator -/

section Pattern

variable {sep : α} {s : List α}

/-- A pattern is on one side of a separator. -/
theorem infix_append_cons_iff (hs : sep ∉ s) {a b : List α} :
    s <:+: a ++ sep :: b ↔ s <:+: a ∨ s <:+: b := by
  constructor
  · intro h
    obtain ha | hb | ⟨l₁, l₂, rfl, hl₁, hl₂⟩ := List.infix_append_iff.mp h
    · exact .inl ha
    · obtain hpre | hb := List.infix_cons_iff.mp hb
      · cases s with
        | nil => exact .inl List.nil_infix
        | cons c s =>
          obtain rfl := (List.cons_prefix_cons.mp hpre).1
          exact absurd List.mem_cons_self hs
      · exact .inr hb
    · cases l₂ with
      | nil =>
        rw [List.append_nil]
        exact .inl hl₁.isInfix
      | cons c l₂ =>
        obtain rfl := (List.cons_prefix_cons.mp hl₂).1
        exact absurd (List.mem_append_right l₁ List.mem_cons_self) hs
  · rintro (ha | hb)
    · exact List.infix_append_of_infix_left ha
    · exact List.infix_append_of_infix_right (hb.trans (List.suffix_cons sep b).isInfix)

/-- A pattern in lines and what follows them is in one of the lines or in what follows. -/
theorem infix_joinLines_append_iff (hs : sep ∉ s) {ls : List (List α)} {t : List α} :
    s <:+: joinLines sep ls ++ t ↔ (∃ l ∈ ls, s <:+: l) ∨ s <:+: t := by
  induction ls with
  | nil =>
    rw [joinLines_nil, List.nil_append]
    exact ⟨.inr, fun h => h.resolve_left fun ⟨_, hl, _⟩ => absurd hl List.not_mem_nil⟩
  | cons l ls ih =>
    rw [joinLines_cons, List.append_assoc, List.cons_append, infix_append_cons_iff hs, ih,
      List.exists_mem_cons_iff, or_assoc]

/-- A pattern in a text is in one of its lines or in its tail. -/
theorem infix_iff_linesOf [DecidableEq α] (hs : sep ∉ s) {t : List α} :
    s <:+: t ↔ (∃ l ∈ linesOf sep t, s <:+: l) ∨ s <:+: tailOf sep t := by
  rw [← infix_joinLines_append_iff hs, joinLines_linesOf]

end Pattern

/-! ## Patterns in an escaped text -/

section Escape

variable {esc : α → List α} {a b : α} {s t : List α}

theorem infix_append_of_not_mem (ha : a ∉ t) {u : List α} (h : a :: s <:+: t ++ u) :
    a :: s <:+: u := by
  obtain ht | hu | ⟨l₁, l₂, hl, hl₁, hl₂⟩ := List.infix_append_iff.mp h
  · exact absurd (ht.subset List.mem_cons_self) ha
  · exact hu
  · cases l₁ with
    | nil =>
      rw [hl]
      exact hl₂.isInfix
    | cons c l₁ =>
      obtain rfl := (List.cons.inj hl).1
      exact absurd (hl₁.subset List.mem_cons_self) ha

theorem flatMap_escape_eq (hs : ∀ c ∈ s, esc c = [c]) : s.flatMap esc = s := by
  induction s with
  | nil => rfl
  | cons c s ih =>
    rw [List.flatMap_cons, hs c List.mem_cons_self, ih fun d hd => hs d (List.mem_cons_of_mem c hd),
      List.singleton_append]

/-- A text is escaped by `b` before some of its characters: what has no `b` in it begins the
escaped text only where it begins the text. -/
theorem prefix_of_prefix_flatMap (hesc : ∀ c, esc c = [c] ∨ ∃ l, esc c = b :: l) (hb : b ∉ s)
    (h : s <+: t.flatMap esc) : s <+: t := by
  induction t generalizing s with
  | nil => exact h
  | cons c t ih =>
    cases s with
    | nil => exact List.nil_prefix
    | cons d s =>
      rw [List.flatMap_cons] at h
      obtain hc | ⟨l, hc⟩ := hesc c
      · rw [hc, List.singleton_append, List.cons_prefix_cons] at h
        rw [List.cons_prefix_cons]
        exact ⟨h.1, ih (List.not_mem_of_not_mem_cons hb) h.2⟩
      · rw [hc, List.cons_append, List.cons_prefix_cons] at h
        exact absurd (h.1 ▸ List.mem_cons_self) hb

/-- A pattern of characters that are not escaped is in the escaped text where it is in the
text, if its first one is in no escape. -/
theorem infix_flatMap_iff (hesc : ∀ c, esc c = [c] ∨ ∃ l, esc c = b :: l ∧ a ∉ l)
    (hb : b ∉ a :: s) (hs : ∀ c ∈ a :: s, esc c = [c]) :
    a :: s <:+: t.flatMap esc ↔ a :: s <:+: t := by
  constructor
  · intro h
    induction t with
    | nil => exact h
    | cons c t ih =>
      rw [List.flatMap_cons] at h
      obtain hc | ⟨l, hc, hl⟩ := hesc c
      · rw [hc, List.singleton_append] at h
        obtain hpre | hrest := List.infix_cons_iff.mp h
        · have hbegins : a :: s <+: (c :: t).flatMap esc := by
            rw [List.flatMap_cons, hc]
            exact hpre
          have hesc' : ∀ c, esc c = [c] ∨ ∃ l, esc c = b :: l := fun c =>
            (hesc c).imp_right fun ⟨l, hl, _⟩ => ⟨l, hl⟩
          exact (prefix_of_prefix_flatMap hesc' hb hbegins).isInfix
        · exact (ih hrest).trans (List.suffix_cons c t).isInfix
      · have hnot : a ∉ b :: l := by
          rw [List.mem_cons, not_or]
          exact ⟨fun hab => hb (hab ▸ List.mem_cons_self), hl⟩
        rw [hc] at h
        exact (ih (infix_append_of_not_mem hnot h)).trans (List.suffix_cons c t).isInfix
  · rintro ⟨u, v, rfl⟩
    rw [List.flatMap_append, List.flatMap_append, flatMap_escape_eq hs]
    exact List.infix_append _ _ _

end Escape

end FlsunT1.Library
