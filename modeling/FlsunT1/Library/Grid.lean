/-
  Library/Grid.lean --- grids as lists of lists, filled cell by cell.

  A grid that is given by a function is `table`.  What a loop over the cells does to it is told by
  the function: `fill_table`.
-/
import Mathlib.Algebra.Order.Group.Nat
import Mathlib.Data.List.Basic
import Mathlib.Data.List.GetD

set_option autoImplicit false

namespace FlsunT1.Library

namespace Grid

variable {α σ : Type*}

def cell (m : List (List α)) (i j : ℕ) : Option α := m[i]?.bind fun row => row[j]?

/-- `m[i][j] = v`; `none` where there is no such cell. -/
def setCell (i j : ℕ) (v : α) (m : List (List α)) : Option (List (List α)) :=
  m[i]?.bind fun row => if j < row.length then some (m.set i (row.set j v)) else none

/-- The grid of `h` rows of length `w` whose cells a function gives. -/
def table (h w : ℕ) (g : ℕ → ℕ → α) : List (List α) :=
  (List.range h).map fun i => (List.range w).map (g i)

/-- One cell of a function is replaced. -/
def put (g : ℕ → ℕ → α) (i j : ℕ) (v : α) : ℕ → ℕ → α :=
  fun a b => if a = i ∧ b = j then v else g a b

/-- A loop over the lines and the cells of each line; some lines and some cells are skipped. -/
def fill (n m : ℕ) (skipLine skipCell : ℕ → Bool) (value : σ → ℕ → ℕ → Option α)
    (set : ℕ → ℕ → α → σ → Option σ) (s : σ) : Option σ :=
  (List.range n).foldlM (fun s i =>
    if skipLine i then some s
    else (List.range m).foldlM (fun s j =>
      if skipCell j then some s else (value s i j).bind fun v => set i j v s) s) s

/-- A loop that succeeds for each element. -/
theorem mapM_eq_some_map {α β : Type*} {f : α → Option β} {g : α → β} {l : List α}
    (h : ∀ a ∈ l, f a = some (g a)) : l.mapM f = some (l.map g) := by
  induction l with
  | nil => rfl
  | cons a l ih =>
    rw [List.mapM_cons, h a List.mem_cons_self,
      ih fun b hb => h b (List.mem_cons_of_mem a hb)]
    rfl

section Table

variable {h w : ℕ} {g g' : ℕ → ℕ → α} {i j : ℕ}

theorem length_table : (table h w g).length = h := by
  rw [table, List.length_map, List.length_range]

theorem table_getElem? (hi : i < h) : (table h w g)[i]? = some ((List.range w).map (g i)) := by
  rw [table, List.getElem?_map, List.getElem?_range hi]
  rfl

theorem cell_table (hi : i < h) (hj : j < w) : cell (table h w g) i j = some (g i j) := by
  rw [cell, table_getElem? hi, Option.bind_some, List.getElem?_map, List.getElem?_range hj]
  rfl

theorem table_congr (hg : ∀ i < h, ∀ j < w, g i j = g' i j) : table h w g = table h w g' := by
  unfold table
  apply List.map_congr_left
  intro i hi
  apply List.map_congr_left
  intro j hj
  exact hg i (List.mem_range.mp hi) j (List.mem_range.mp hj)

theorem set_range_map {f : ℕ → α} {v : α} :
    ((List.range w).map f).set j v = (List.range w).map fun b => if b = j then v else f b := by
  apply List.ext_getElem?
  intro b
  rw [List.getElem?_set, List.length_map, List.length_range, List.getElem?_map, List.getElem?_map]
  by_cases hb : b < w
  · rw [List.getElem?_range hb, Option.map_some, Option.map_some]
    by_cases heq : j = b
    · rw [if_pos heq, if_pos (heq ▸ hb), if_pos heq.symm]
    · rw [if_neg heq, if_neg (fun h => heq h.symm)]
  · rw [List.getElem?_eq_none (by rw [List.length_range]; omega), Option.map_none, Option.map_none]
    by_cases heq : j = b
    · rw [if_pos heq, if_neg (heq ▸ hb)]
    · rw [if_neg heq]

theorem setCell_table {v : α} (hi : i < h) (hj : j < w) :
    setCell i j v (table h w g) = some (table h w (put g i j v)) := by
  rw [setCell, table_getElem? hi, Option.bind_some, List.length_map, List.length_range, if_pos hj,
    set_range_map, table, set_range_map, table]
  congr 1
  apply List.map_congr_left
  intro a _
  unfold put
  split
  · rename_i ha
    apply List.map_congr_left
    intro b _
    subst ha
    by_cases hb : b = j
    · rw [if_pos hb, if_pos ⟨rfl, hb⟩]
    · rw [if_neg hb, if_neg (fun h => hb h.2)]
  · rename_i ha
    apply List.map_congr_left
    intro b _
    rw [if_neg (fun h => ha h.1)]

/-- Every grid with rows of one length is given by a function. -/
theorem exists_table [Inhabited α] {m : List (List α)} (hm : m.length = h)
    (hrows : ∀ row ∈ m, row.length = w) : ∃ g, m = table h w g := by
  refine ⟨fun i j => (m.getD i []).getD j default, ?_⟩
  apply List.ext_getElem?
  intro i
  by_cases hi : i < h
  · have hlt : i < m.length := hm ▸ hi
    have hlen : m[i].length = w := hrows _ (List.getElem_mem hlt)
    rw [table_getElem? hi, List.getElem?_eq_getElem hlt]
    congr 1
    apply List.ext_getElem?
    intro j
    rw [List.getElem?_map]
    by_cases hj : j < w
    · have hlt' : j < m[i].length := hlen ▸ hj
      rw [List.getElem?_range hj, Option.map_some, List.getElem?_eq_getElem hlt',
        List.getD_eq_getElem _ _ hlt, List.getD_eq_getElem _ _ hlt']
    · rw [List.getElem?_eq_none (by omega), List.getElem?_eq_none
        (by rw [List.length_range]; omega), Option.map_none]
  · rw [List.getElem?_eq_none (by omega), List.getElem?_eq_none (by rw [length_table]; omega)]

theorem le_foldl_add (l : List ℕ) (n : ℕ) : n ≤ l.foldl (· + ·) n := by
  induction l generalizing n with
  | nil => exact le_rfl
  | cons a l ih => exact (Nat.le_add_right n a).trans (ih (n + a))

theorem table_ne_nil (hh : 0 < h) (hw : 0 < w) (g : ℕ → ℕ → α) :
    table h w g ≠ [] ∧ ∀ row ∈ table h w g, row ≠ [] := by
  have hrange {n : ℕ} (hn : 0 < n) : List.range n ≠ [] := fun hnil =>
    hn.ne' (List.range_eq_nil.mp hnil)
  refine ⟨fun hnil => hrange hh (List.map_eq_nil_iff.mp hnil), fun row hrow hnil => ?_⟩
  obtain ⟨j, -, rfl⟩ := List.mem_map.mp hrow
  exact hrange hw (List.map_eq_nil_iff.mp hnil)

/-- There are cells to take the average of. -/
theorem count_table_pos (hh : 0 < h) (hw : 0 < w) (g : ℕ → ℕ → α) :
    0 < ((table h w g).map List.length).foldl (· + ·) 0 := by
  obtain ⟨n, rfl⟩ := Nat.exists_eq_succ_of_ne_zero hh.ne'
  unfold table
  rw [List.range_succ_eq_map, List.map_cons, List.map_cons, List.foldl_cons, List.length_map,
    List.length_range, Nat.zero_add]
  exact hw.trans_le (le_foldl_add _ w)

end Table

/-- The last pass of a loop over a range. -/
theorem foldlM_range_succ (f : σ → ℕ → Option σ) (k : ℕ) (s : σ) :
    (List.range (k + 1)).foldlM f s = ((List.range k).foldlM f s).bind fun t => f t k := by
  rw [List.range_succ, List.foldlM_append]
  apply congrArg (Option.bind _)
  funext t
  cases hft : f t k with
  | none => rw [List.foldlM_cons, hft]; rfl
  | some u => rw [List.foldlM_cons, hft]; rfl

section Fill

variable {n m : ℕ} {skipLine skipCell : ℕ → Bool} {value : σ → ℕ → ℕ → Option α}
  {set : ℕ → ℕ → α → σ → Option σ} {enc : (ℕ → ℕ → α) → σ} {F : (ℕ → α) → ℕ → α}

/-- One line: the cells that are not skipped get their values, which depend on the skipped cells
of the line alone. -/
theorem foldlM_line {i : ℕ} (hi : i < n)
    (hset : ∀ g a b v, a < n → b < m → set a b v (enc g) = some (enc (put g a b v)))
    (hvalue : ∀ g b, b < m → skipCell b = false → value (enc g) i b = some (F (g i) b))
    (hF : ∀ p p' b, (∀ c, skipCell c = true → p c = p' c) → F p b = F p' b)
    (g : ℕ → ℕ → α) {k : ℕ} (hk : k ≤ m) :
    (List.range k).foldlM (fun s j =>
        if skipCell j then some s else (value s i j).bind fun v => set i j v s) (enc g) =
      some (enc fun a b => if a = i ∧ b < k ∧ skipCell b = false then F (g i) b else g a b) := by
  induction k with
  | zero =>
    rw [List.range_zero, List.foldlM_nil]
    congr 2
    funext a b
    rw [if_neg (fun h => Nat.not_lt_zero _ h.2.1)]
  | succ k ih =>
    rw [foldlM_range_succ, ih (by omega), Option.bind_some]
    cases hskip : skipCell k with
    | true =>
      rw [if_pos rfl]
      congr 2
      funext a b
      by_cases hb : b = k
      · subst hb
        rw [hskip, if_neg (fun h => by cases h.2.2), if_neg (fun h => by cases h.2.2)]
      · have : b < k + 1 ↔ b < k := by omega
        simp only [this]
    | false =>
      have hline : F (fun b => if i = i ∧ b < k ∧ skipCell b = false then F (g i) b else g i b) k =
          F (g i) k := by
        apply hF
        intro c hc
        rw [hc, if_neg (fun h => by cases h.2.2)]
      rw [if_neg Bool.false_ne_true, hvalue _ k (by omega) hskip, hline, Option.bind_some,
        hset _ i k _ hi (by omega)]
      congr 2
      funext a b
      dsimp only [put]
      by_cases ha : a = i
      · by_cases hb : b = k
        · subst ha hb
          rw [if_pos ⟨rfl, rfl⟩, if_pos ⟨rfl, Nat.lt_succ_self _, hskip⟩]
        · have : b < k + 1 ↔ b < k := by omega
          rw [if_neg (fun h => hb h.2)]
          simp only [this]
      · rw [if_neg (fun h => ha h.1), if_neg (fun h => ha h.1), if_neg (fun h => ha h.1)]

/-- A loop over all cells. -/
theorem fill_enc (enc : (ℕ → ℕ → α) → σ) (F : (ℕ → α) → ℕ → α)
    (henc : ∀ g g', (∀ a < n, ∀ b < m, g a b = g' a b) → enc g = enc g')
    (hset : ∀ g a b v, a < n → b < m → set a b v (enc g) = some (enc (put g a b v)))
    (hvalue : ∀ g a b, a < n → b < m → skipLine a = false → skipCell b = false →
      value (enc g) a b = some (F (g a) b))
    (hF : ∀ p p' b, (∀ c, skipCell c = true → p c = p' c) → F p b = F p' b) (g : ℕ → ℕ → α) :
    fill n m skipLine skipCell value set (enc g) =
      some (enc fun a b =>
        if skipLine a = true ∨ skipCell b = true then g a b else F (g a) b) := by
  have hlines (k : ℕ) (hk : k ≤ n) :
      (List.range k).foldlM (fun s i =>
          if skipLine i then some s
          else (List.range m).foldlM (fun s j =>
            if skipCell j then some s else (value s i j).bind fun v => set i j v s) s) (enc g) =
        some (enc fun a b =>
          if a < k ∧ ¬ (skipLine a = true ∨ skipCell b = true) then F (g a) b else g a b) := by
    induction k with
    | zero =>
      apply congrArg fun g => some (enc g)
      funext a b
      rw [if_neg (fun h => Nat.not_lt_zero _ h.1)]
    | succ k ih =>
      rw [foldlM_range_succ, ih (by omega), Option.bind_some]
      cases hskip : skipLine k with
      | true =>
        rw [if_pos rfl]
        congr 2
        funext a b
        by_cases ha : a = k
        · subst ha
          rw [if_neg (fun h => h.2 (Or.inl hskip)), if_neg (fun h => h.2 (Or.inl hskip))]
        · have : a < k + 1 ↔ a < k := by omega
          simp only [this]
      | false =>
        rw [if_neg Bool.false_ne_true, foldlM_line (by omega) hset
          (fun g b hb hcell => hvalue g k b (by omega) hb hskip hcell) hF _ (Nat.le_refl m)]
        congr 1
        apply henc
        intro a _ b hb
        by_cases ha : a = k
        · subst ha
          have hline : (fun b => if a < a ∧ ¬ (skipLine a = true ∨ skipCell b = true)
              then F (g a) b else g a b) = g a := by
            funext b
            rw [if_neg (fun h => Nat.lt_irrefl _ h.1)]
          have hself : (if a < a ∧ ¬ (skipLine a = true ∨ skipCell b = true)
              then F (g a) b else g a b) = g a b := if_neg fun h => Nat.lt_irrefl _ h.1
          rw [hline, hself, hskip]
          apply if_congr _ rfl rfl
          rw [and_iff_right rfl, and_iff_right hb, and_iff_right (Nat.lt_succ_self a),
            or_iff_right Bool.false_ne_true, Bool.not_eq_true]
        · have : a < k + 1 ↔ a < k := by omega
          rw [if_neg (fun h => ha h.1)]
          simp only [this]
  unfold fill
  rw [hlines n (Nat.le_refl n)]
  congr 1
  apply henc
  intro a ha b _
  by_cases h : skipLine a = true ∨ skipCell b = true
  · rw [if_neg (fun h' => h'.2 h), if_pos h]
  · rw [if_pos ⟨ha, h⟩, if_neg h]

end Fill

end Grid

end FlsunT1.Library
