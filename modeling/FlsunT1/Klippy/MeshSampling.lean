/-
  Klippy/MeshSampling.lean --- what the two passes of the interpolation leave in the mesh.
-/
import FlsunT1.Klippy.ZMesh

set_option autoImplicit false

namespace FlsunT1.Klippy

open Library
open Library.Grid

variable {K : Type}

/-! ## An axis -/

/-- Three points or more, from left to right. -/
structure MeshAxis.Valid [LinearOrder K] (a : MeshAxis K) : Prop where
  probeCount : 3 ≤ a.probeCount
  lt : a.meshMin < a.meshMax

namespace MeshAxis

variable {a : MeshAxis K}

theorem mult_pos (a : MeshAxis K) : 0 < a.mult := Nat.succ_pos _

theorem meshCount_eq (h : 1 ≤ a.probeCount) : a.meshCount = (a.probeCount - 1) * a.mult + 1 := by
  unfold meshCount mult
  rw [Nat.mul_succ]
  omega

variable [LinearOrder K]

theorem Valid.meshCount (h : a.Valid) : a.meshCount = (a.probeCount - 1) * a.mult + 1 :=
  meshCount_eq (by have := h.probeCount; omega)

theorem Valid.two_lt_meshCount (h : a.Valid) : 2 < a.meshCount := by
  have hmul : 2 * 1 ≤ (a.probeCount - 1) * a.mult :=
    Nat.mul_le_mul (by have := h.probeCount; omega) (mult_pos a)
  rw [h.meshCount]
  omega

theorem Valid.mul_lt (h : a.Valid) {k : ℕ} (hk : k < a.probeCount) :
    k * a.mult < a.meshCount := by
  have := Nat.mul_le_mul_right a.mult (show k ≤ a.probeCount - 1 by omega)
  rw [h.meshCount]
  omega

theorem Valid.div_lt (h : a.Valid) {i : ℕ} (hi : i < a.meshCount) : i / a.mult < a.probeCount := by
  have := h.probeCount
  rw [h.meshCount] at hi
  rw [Nat.div_lt_iff_lt_mul (mult_pos a)]
  have hsucc : a.probeCount = a.probeCount - 1 + 1 := by omega
  rw [hsucc, Nat.succ_mul]
  have := mult_pos a
  omega

theorem Valid.direct (ha : a.Valid) (hpps : a.pps = 0) :
    a.mult = 1 ∧ a.meshCount = a.probeCount := by
  have hmult : a.mult = 1 := congrArg (· + 1) hpps
  refine ⟨hmult, ?_⟩
  have := ha.probeCount
  rw [ha.meshCount, hmult]
  omega

variable [Field K] [IsStrictOrderedRing K]

theorem Valid.meshDist_pos (h : a.Valid) : 0 < a.meshDist := by
  have hcount : (2 : K) < a.meshCount := by exact_mod_cast h.two_lt_meshCount
  exact div_pos (sub_pos.mpr h.lt) (by linarith)

theorem Valid.injOn (h : a.Valid) (s : Set ℕ) :
    Set.InjOn (fun k : ℕ => a.coordinate (k * a.mult)) s := by
  intro k _ l _ heq
  dsimp only [coordinate] at heq
  rw [add_right_inj, mul_right_inj' h.meshDist_pos.ne'] at heq
  have hmul : (k : ℤ) * a.mult = l * a.mult := by exact_mod_cast heq
  have hne : (a.mult : ℤ) ≠ 0 := by exact_mod_cast (mult_pos a).ne'
  exact_mod_cast mul_right_cancel₀ hne hmul

end MeshAxis

/-! ## The polynomial through the probed points -/

section Lagrange

variable [Field K]

theorem lagrangeFactors_eq (n : ℕ) (x : ℕ → K) (c : K) (i : ℕ) :
    lagrangeFactors n x c i =
      (∏ j ∈ (Finset.range n).erase i, (c - x j), ∏ j ∈ (Finset.range n).erase i, (x i - x j)) := by
  unfold lagrangeFactors
  induction n with
  | zero => rfl
  | succ n ih =>
    rw [List.range_succ, List.foldl_append, ih, List.foldl_cons, List.foldl_nil]
    by_cases hn : n = i
    · subst hn
      rw [if_pos rfl, Finset.range_add_one, Finset.erase_insert Finset.notMem_range_self,
        Finset.erase_eq_of_notMem Finset.notMem_range_self]
    · have hnot : n ∉ (Finset.range n).erase i := fun h =>
        Finset.notMem_range_self (Finset.mem_of_mem_erase h)
      rw [if_neg hn, Finset.range_add_one, Finset.erase_insert_of_ne hn,
        Finset.prod_insert hnot, Finset.prod_insert hnot, mul_comm _ (c - x n),
        mul_comm _ (x i - x n)]

theorem calcLagrange_eq [LinearOrder K] {n : ℕ} {x f : ℕ → K} {z : ℕ → Option K}
    (hx : Set.InjOn x (Finset.range n)) (hz : ∀ i < n, z i = some (f i)) (c : K) :
    calcLagrange n x c z = some (lagrange n x f c) := by
  have hloop (k : ℕ) (hk : k ≤ n) :
      (List.range k).foldlM (fun total i =>
          let nd := lagrangeFactors n x c i
          (z i).bind fun z => if nd.2 = 0 then none else some (total + z * nd.1 / nd.2)) 0 =
        some (∑ i ∈ Finset.range k, f i * (∏ j ∈ (Finset.range n).erase i, (c - x j)) /
          ∏ j ∈ (Finset.range n).erase i, (x i - x j)) := by
    induction k with
    | zero => rfl
    | succ k ih =>
      have hne : ∏ j ∈ (Finset.range n).erase k, (x k - x j) ≠ 0 := by
        rw [Finset.prod_ne_zero_iff]
        intro j hj
        rw [Finset.mem_erase] at hj
        rw [sub_ne_zero]
        intro heq
        exact hj.1 (hx (Finset.mem_coe.mpr (Finset.mem_range.mpr (by omega)))
          (Finset.mem_coe.mpr hj.2) heq).symm
      rw [foldlM_range_succ, ih (by omega), Option.bind_some]
      dsimp only
      rw [hz k (by omega), Option.bind_some, lagrangeFactors_eq, if_neg hne,
        Finset.sum_range_succ]
  exact hloop n le_rfl

end Lagrange

/-! ## The control points of a spline -/

theorem getItem_natCast {α : Type} (l : List α) (i : ℕ) : getItem l i = l[i]? := by
  rw [getItem, if_pos (Int.natCast_nonneg i), Int.toNat_natCast]

theorem mem_rangeStep {start stop step i : ℤ} (hstep : 0 < step) :
    i ∈ rangeStep start stop step ↔ i < stop ∧ ∃ k : ℕ, i = start + k * step := by
  unfold rangeStep
  rw [List.mem_filter, List.mem_map, decide_eq_true_eq]
  constructor
  · rintro ⟨⟨k, -, rfl⟩, hlt⟩
    exact ⟨hlt, k, rfl⟩
  · rintro ⟨hlt, k, rfl⟩
    refine ⟨⟨k, ?_, rfl⟩, hlt⟩
    have : (k : ℤ) * 1 ≤ k * step := mul_le_mul_of_nonneg_left (by omega) (Int.natCast_nonneg k)
    rw [List.mem_range]
    omega

/-- The loop over the segments between the first and the last one finds the one that holds `x`. -/
theorem find?_rangeStep {mult n l : ℕ} {x : ℤ} (hmult : 0 < mult) (hln : l < n)
    (hlow : ((l + 1 : ℕ) : ℤ) * mult < x) (hhigh : x < ((l + 1 : ℕ) : ℤ) * mult + mult) :
    (rangeStep (mult : ℤ) ((n + 1) * mult) mult).find?
      (fun i : ℤ => decide (i < x ∧ x < i + mult)) = some (((l + 1 : ℕ) : ℤ) * mult) := by
  have hpos : (0 : ℤ) < mult := by exact_mod_cast hmult
  cases hfind : (rangeStep (mult : ℤ) ((n + 1) * mult) mult).find?
      (fun i : ℤ => decide (i < x ∧ x < i + mult)) with
  | none =>
    have hmem : ((l + 1 : ℕ) : ℤ) * mult ∈ rangeStep (mult : ℤ) ((n + 1) * mult) mult := by
      refine (mem_rangeStep hpos).mpr ⟨?_, l, by push_cast; ring⟩
      apply mul_lt_mul_of_pos_right _ hpos
      omega
    exact absurd (decide_eq_true ⟨hlow, hhigh⟩) (List.find?_eq_none.mp hfind _ hmem)
  | some i =>
    have hpred : decide (i < x ∧ x < i + mult) = true :=
      List.find?_some (p := fun i : ℤ => decide (i < x ∧ x < i + mult)) hfind
    obtain ⟨hlt, hgt⟩ := of_decide_eq_true hpred
    obtain ⟨-, j, rfl⟩ := (mem_rangeStep hpos).mp (List.mem_of_find?_eq_some hfind)
    -- two segments of one length that hold the same index are the same
    have hle : (j : ℤ) < l + 1 := by
      by_contra hge
      have := mul_le_mul_of_nonneg_right (not_lt.mp hge) hpos.le
      push_cast at hhigh
      nlinarith
    have hge : (l : ℤ) < j + 1 := by
      by_contra hle
      have := mul_le_mul_of_nonneg_right (not_lt.mp hle) hpos.le
      push_cast at hlow
      nlinarith
    obtain rfl : j = l := by omega
    congr 1
    push_cast
    ring

section Spline

variable [Field K]

/-- The control points for index `x` of a line, by the heights `q` of its probed points. -/
def ctlPtsAt (a : MeshAxis K) (q : ℕ → K) (x : ℕ) : CtlPts K :=
  let k := x / a.mult
  { p0 := q (k - 1)
    p1 := q k
    p2 := q (k + 1)
    p3 := q (min (k + 2) (a.probeCount - 1))
    t := ((x - k * a.mult : ℤ) : K) / (a.mult : ℤ) }

/-- The segment that holds `x` is found, and all its control points are in the line. -/
theorem getCtlPts_eq [LinearOrder K] {a : MeshAxis K} (ha : a.Valid) {row : ℤ → Option K}
    {q : ℕ → K} (hrow : ∀ k < a.probeCount, row ((k * a.mult : ℕ) : ℤ) = some (q k)) {x : ℕ}
    (hx : x < a.meshCount) (hmod : x % a.mult ≠ 0) :
    getCtlPts a row x = some (ctlPtsAt a q x) := by
  obtain ⟨n, hn⟩ : ∃ n, a.probeCount = n + 3 := ⟨a.probeCount - 3, by have := ha.probeCount; omega⟩
  obtain ⟨k, hk⟩ : ∃ k, x / a.mult = k := ⟨_, rfl⟩
  have hmult := a.mult_pos
  have hdiv : k * a.mult + x % a.mult = x := by
    rw [← hk, mul_comm]
    exact Nat.div_add_mod x a.mult
  have hlow : k * a.mult < x := by omega
  have hhigh : x < k * a.mult + a.mult := by
    have := Nat.mod_lt x hmult
    omega
  have hcount : a.meshCount = n * a.mult + 2 * a.mult + 1 := by
    rw [ha.meshCount, hn, show n + 3 - 1 = n + 2 by omega, Nat.add_mul]
  have hrow' (l : ℕ) (hl : l < n + 3) {i : ℤ} (hi : i = l * a.mult) : row i = some (q l) := by
    rw [hi, ← hrow l (hn ▸ hl)]
    push_cast
    rfl
  have hlast : (a.meshCount : ℤ) - 1 - a.mult = (n + 1) * a.mult := by
    rw [hcount]
    push_cast
    ring
  have hkn : k < n + 2 := by
    by_contra hge
    have := Nat.mul_le_mul_right a.mult (not_lt.mp hge)
    rw [Nat.add_mul] at this
    omega
  unfold getCtlPts ctlPtsAt
  dsimp only
  rw [hk, hlast, hn]
  split
  · rename_i hfirst
    have hzero : k = 0 := by
      by_contra hne
      have := Nat.mul_le_mul_right a.mult (Nat.one_le_iff_ne_zero.mpr hne)
      have hfirst' : x < a.mult := by exact_mod_cast hfirst
      omega
    subst hzero
    rw [hrow' 0 (by omega) (by ring), hrow' 1 (by omega) (by ring), hrow' 2 (by omega) (by ring),
      Nat.cast_zero, zero_mul, sub_zero, show min (0 + 2) (n + 3 - 1) = 2 by omega]
    rfl
  · rename_i hfirst
    have hpos : k ≠ 0 := by
      rintro rfl
      apply hfirst
      omega
    obtain ⟨l, rfl⟩ : ∃ l, k = l + 1 := ⟨k - 1, by omega⟩
    split
    · rename_i hlater
      have heq : l = n := by
        have hlater' : (n + 1) * a.mult < x := by exact_mod_cast hlater
        by_contra hne
        have hle := Nat.mul_le_mul_right a.mult (show l + 1 ≤ n by omega)
        rw [Nat.succ_mul] at hlater'
        omega
      subst heq
      rw [hrow' l (by omega) (by ring), hrow' (l + 1) (by omega) (by push_cast; ring),
        hrow' (l + 2) (by omega) (by push_cast; ring),
        show min (l + 1 + 2) (l + 3 - 1) = l + 2 by omega]
      push_cast
      rfl
    · rename_i hlater
      have hln : l < n := by
        by_contra hge
        apply hlater
        have hle := Nat.mul_le_mul_right a.mult (show n + 1 ≤ l + 1 by omega)
        have : (n + 1) * a.mult < x := by omega
        exact_mod_cast this
      have hsegment : (rangeStep (a.mult : ℤ) ((n + 1) * a.mult) a.mult).find?
          (fun i : ℤ => decide (i < x ∧ x < i + a.mult)) = some (((l + 1 : ℕ) : ℤ) * a.mult) :=
        find?_rangeStep hmult hln (by exact_mod_cast hlow) (by exact_mod_cast hhigh)
      rw [hsegment]
      dsimp only
      rw [hrow' l (by omega) (by push_cast; ring), hrow' (l + 1) (by omega) rfl,
        hrow' (l + 2) (by omega) (by push_cast; ring),
        hrow' (l + 3) (by omega) (by push_cast; ring),
        show min (l + 1 + 2) (n + 3 - 1) = l + 3 by omega]
      rfl

end Spline

/-! ## The two passes -/

/-- Row `k` of the probed points at index `i`; `fx` computes it from the heights of the row. -/
def rowAt (xMult : ℕ) (fx : (ℕ → K) → ℕ → K) (z : ℕ → ℕ → K) (k i : ℕ) : K :=
  if i % xMult = 0 then z k (i / xMult) else fx (z k) i

/-- What the passes leave in row `j`; `fy` computes it from the rows of the probed points. -/
def meshAt (xMult yMult : ℕ) (fx fy : (ℕ → K) → ℕ → K) (z : ℕ → ℕ → K) (j i : ℕ) : K :=
  if j % yMult = 0 then rowAt xMult fx z (j / yMult) i
  else fy (fun k => rowAt xMult fx z k i) j

theorem meshAt_probed {xMult yMult : ℕ} (hx : 0 < xMult) (hy : 0 < yMult)
    (fx fy : (ℕ → K) → ℕ → K) (z : ℕ → ℕ → K) (j i : ℕ) :
    meshAt xMult yMult fx fy z (j * yMult) (i * xMult) = z j i := by
  rw [meshAt, if_pos (Nat.mul_mod_left j yMult), rowAt, if_pos (Nat.mul_mod_left i xMult),
    Nat.mul_div_cancel j hy, Nat.mul_div_cancel i hx]

section Passes

variable [Field K] [LinearOrder K] {p : MeshParams K}

/-- The first matrix, as a function. -/
def MeshParams.probedAt (p : MeshParams K) (z : ℕ → ℕ → K) (j i : ℕ) : K :=
  if i % p.xAxis.mult ≠ 0 ∨ j % p.yAxis.mult ≠ 0 then 0
  else z (j / p.yAxis.mult) (i / p.xAxis.mult)

theorem probedCells_table (hx : p.xAxis.Valid) (hy : p.yAxis.Valid) (z : ℕ → ℕ → K) :
    p.probedCells (table p.yCount p.xCount z) =
      some (table p.yAxis.meshCount p.xAxis.meshCount (p.probedAt z)) := by
  unfold MeshParams.probedCells table
  apply mapM_eq_some_map
  intro j hj
  apply mapM_eq_some_map
  intro i hi
  unfold MeshParams.probedAt
  by_cases hskip : i % p.xAxis.mult ≠ 0 ∨ j % p.yAxis.mult ≠ 0
  · rw [if_pos hskip, if_pos hskip]
  · rw [if_neg hskip, if_neg hskip]
    exact cell_table (h := p.yCount) (w := p.xCount) (hy.div_lt (List.mem_range.mp hj))
      (hx.div_lt (List.mem_range.mp hi))

/-- The passes, for values that are computed from the probed points of a line. -/
theorem interpolate_table (hx : p.xAxis.Valid) (hy : p.yAxis.Valid)
    {valueX valueY : List (List K) → ℕ → ℕ → Option K} {fx fy : (ℕ → K) → ℕ → K}
    (hvalueX : ∀ (g : ℕ → ℕ → K) (j i : ℕ), j < p.yAxis.meshCount → i < p.xAxis.meshCount →
      i % p.xAxis.mult ≠ 0 → valueX (table p.yAxis.meshCount p.xAxis.meshCount g) j i =
        some (fx (fun k => g j (k * p.xAxis.mult)) i))
    (hvalueY : ∀ (g : ℕ → ℕ → K) (i j : ℕ), i < p.xAxis.meshCount → j < p.yAxis.meshCount →
      j % p.yAxis.mult ≠ 0 → valueY (table p.yAxis.meshCount p.xAxis.meshCount g) i j =
        some (fy (fun k => g (k * p.yAxis.mult) i) j)) (z : ℕ → ℕ → K) :
    ((p.probedCells (table p.yCount p.xCount z)).bind (p.interpolateX valueX)).bind
        (p.interpolateY valueY) =
      some (table p.yAxis.meshCount p.xAxis.meshCount
        (meshAt p.xAxis.mult p.yAxis.mult fx fy z)) := by
  have hpassX (g : ℕ → ℕ → K) :
      p.interpolateX valueX (table p.yAxis.meshCount p.xAxis.meshCount g) =
        some (table p.yAxis.meshCount p.xAxis.meshCount fun j i =>
          if (j % p.yAxis.mult != 0) = true ∨ (i % p.xAxis.mult == 0) = true then g j i
          else fx (fun k => g j (k * p.xAxis.mult)) i) := by
    apply fill_enc (table p.yAxis.meshCount p.xAxis.meshCount)
      fun line i => fx (fun k => line (k * p.xAxis.mult)) i
    · exact fun _ _ h => table_congr h
    · exact fun _ _ _ _ hj hi => setCell_table hj hi
    · exact fun g j i hj hi _ hcell => hvalueX g j i hj hi (ne_of_beq_false hcell)
    · intro line line' i h
      apply congrFun (congrArg fx (funext fun k => h _ _))
      intro k
      rw [Nat.mul_mod_left]
      rfl
  have hpassY (g : ℕ → ℕ → K) :
      p.interpolateY valueY (table p.yAxis.meshCount p.xAxis.meshCount g) =
        some (table p.yAxis.meshCount p.xAxis.meshCount fun j i =>
          if false = true ∨ (j % p.yAxis.mult == 0) = true then g j i
          else fy (fun k => g (k * p.yAxis.mult) i) j) := by
    refine fill_enc (fun g => table p.yAxis.meshCount p.xAxis.meshCount fun j i => g i j)
      (fun line j => fy (fun k => line (k * p.yAxis.mult)) j) ?_ ?_ ?_ ?_ fun i j => g j i
    · exact fun _ _ h => table_congr fun j hj i hi => h i hi j hj
    · intro g i j v hi hj
      rw [setCell_table hj hi]
      congr 1
      apply table_congr
      intro b _ a _
      exact if_congr and_comm rfl rfl
    · exact fun g i j hi hj _ hcell => hvalueY _ i j hi hj (ne_of_beq_false hcell)
    · intro line line' j h
      apply congrFun (congrArg fy (funext fun k => h _ _))
      intro k
      rw [Nat.mul_mod_left]
      rfl
  have hrow (k i : ℕ) :
      (if (k * p.yAxis.mult % p.yAxis.mult != 0) = true ∨ (i % p.xAxis.mult == 0) = true
        then p.probedAt z (k * p.yAxis.mult) i
        else fx (fun l => p.probedAt z (k * p.yAxis.mult) (l * p.xAxis.mult)) i) =
        rowAt p.xAxis.mult fx z k i := by
    have hprobed (i : ℕ) (hi : i % p.xAxis.mult = 0) :
        p.probedAt z (k * p.yAxis.mult) i = z k (i / p.xAxis.mult) := by
      rw [MeshParams.probedAt, if_neg, Nat.mul_div_cancel k p.yAxis.mult_pos]
      rw [hi, Nat.mul_mod_left]
      exact not_or.mpr ⟨not_not.mpr rfl, not_not.mpr rfl⟩
    unfold rowAt
    by_cases hi : i % p.xAxis.mult = 0
    · rw [if_pos (Or.inr (beq_iff_eq.mpr hi)), if_pos hi, hprobed i hi]
    · rw [if_neg hi, if_neg]
      · apply congrFun (congrArg fx (funext fun l => _))
        intro l
        rw [hprobed _ (Nat.mul_mod_left l _), Nat.mul_div_cancel l p.xAxis.mult_pos]
      · rw [Nat.mul_mod_left, or_iff_right (by decide), beq_iff_eq]
        exact hi
  rw [probedCells_table hx hy, Option.bind_some, hpassX, Option.bind_some, hpassY]
  congr 1
  apply table_congr
  intro j _ i _
  unfold meshAt
  by_cases hj : j % p.yAxis.mult = 0
  · have hmul : j = j / p.yAxis.mult * p.yAxis.mult :=
      (Nat.div_mul_cancel (Nat.dvd_of_mod_eq_zero hj)).symm
    rw [if_pos (Or.inr (beq_iff_eq.mpr hj)), if_pos hj, ← hrow, ← hmul]
  · rw [if_neg hj, if_neg]
    · exact congrFun (congrArg fy (funext fun k => hrow k i)) j
    · rw [or_iff_right Bool.false_ne_true, beq_iff_eq]
      exact hj

end Passes

/-! ## What is sampled -/

namespace MeshParams

variable [Field K] [LinearOrder K] [IsStrictOrderedRing K] (p : MeshParams K)

/-- A point of a line by the polynomial through its probed points. -/
def lagrangeAt (a : MeshAxis K) (q : ℕ → K) (i : ℕ) : K :=
  lagrange a.probeCount (fun k => a.coordinate (k * a.mult)) q (a.coordinate i)

/-- A point of a line by the spline of its segment. -/
def bicubicAt (tension : K) (a : MeshAxis K) (q : ℕ → K) (i : ℕ) : K :=
  cardinalSpline (ctlPtsAt a q i) tension

variable {p}

theorem sampleLagrange_table (hx : p.xAxis.Valid) (hy : p.yAxis.Valid) (z : ℕ → ℕ → K) :
    p.sampleLagrange (table p.yCount p.xCount z) =
      some (table p.yAxis.meshCount p.xAxis.meshCount
        (meshAt p.xAxis.mult p.yAxis.mult (lagrangeAt p.xAxis) (lagrangeAt p.yAxis) z)) := by
  rw [← interpolate_table hx hy _ _ z, Option.bind_assoc]
  · rfl
  · intro g j i hj _ _
    exact calcLagrange_eq (hx.injOn _) (fun k hk => cell_table hj (hx.mul_lt hk)) _
  · intro g i j hi _ _
    exact calcLagrange_eq (hy.injOn _) (fun k hk => cell_table (hy.mul_lt hk) hi) _

omit [IsStrictOrderedRing K] in
theorem sampleBicubic_table (hx : p.xAxis.Valid) (hy : p.yAxis.Valid) (z : ℕ → ℕ → K) :
    p.sampleBicubic (table p.yCount p.xCount z) =
      some (table p.yAxis.meshCount p.xAxis.meshCount
        (meshAt p.xAxis.mult p.yAxis.mult (bicubicAt p.tension p.xAxis)
          (bicubicAt p.tension p.yAxis) z)) := by
  rw [← interpolate_table hx hy _ _ z, Option.bind_assoc]
  · rfl
  · intro g j i hj hi hmod
    have hpts : getCtlPts p.xAxis (getItem ((List.range p.xAxis.meshCount).map (g j))) i =
        some (ctlPtsAt p.xAxis (fun k => g j (k * p.xAxis.mult)) i) := by
      apply getCtlPts_eq hx _ hi hmod
      intro k hk
      rw [getItem_natCast, List.getElem?_map, List.getElem?_range (hx.mul_lt hk)]
      rfl
    rw [table_getElem? hj]
    change (getCtlPts p.xAxis (getItem _) (i : ℤ)).bind _ = _
    rw [hpts]
    rfl
  · intro g i j hi hj hmod
    have hpts : getCtlPts p.yAxis
        (fun k => (getItem (table p.yAxis.meshCount p.xAxis.meshCount g) k).bind
          fun row => row[i]?) j = some (ctlPtsAt p.yAxis (fun k => g (k * p.yAxis.mult) i) j) := by
      apply getCtlPts_eq hy _ hj hmod
      intro k hk
      rw [getItem_natCast]
      exact cell_table (hy.mul_lt hk) hi
    change (getCtlPts p.yAxis _ (j : ℤ)).bind _ = _
    rw [hpts]
    rfl

/-- A polynomial of degree below `n` in `x` and below `m` in `y`, by its coefficients. -/
def bipoly (n m : ℕ) (c : ℕ → ℕ → K) (x y : K) : K :=
  ∑ a ∈ Finset.range n, ∑ b ∈ Finset.range m, c a b * x ^ a * y ^ b

omit [LinearOrder K] [IsStrictOrderedRing K] in
theorem bipoly_left (n m : ℕ) (c : ℕ → ℕ → K) (x y : K) :
    bipoly n m c x y = ∑ a ∈ Finset.range n, (∑ b ∈ Finset.range m, c a b * y ^ b) * x ^ a := by
  apply Finset.sum_congr rfl
  intro a _
  rw [Finset.sum_mul]
  apply Finset.sum_congr rfl
  intro b _
  ring

omit [LinearOrder K] [IsStrictOrderedRing K] in
theorem bipoly_right (n m : ℕ) (c : ℕ → ℕ → K) (x y : K) :
    bipoly n m c x y = ∑ b ∈ Finset.range m, (∑ a ∈ Finset.range n, c a b * x ^ a) * y ^ b := by
  unfold bipoly
  rw [Finset.sum_comm]
  apply Finset.sum_congr rfl
  intro b _
  rw [Finset.sum_mul]

/-- The probed values come from a polynomial. -/
def Generated (p : MeshParams K) (z : ℕ → ℕ → K) (c : ℕ → ℕ → K) : Prop :=
  ∀ k < p.yCount, ∀ l < p.xCount,
    z k l = bipoly p.xCount p.yCount c (p.xAxis.coordinate (l * p.xAxis.mult))
      (p.yAxis.coordinate (k * p.yAxis.mult))

theorem rowAt_lagrange (hx : p.xAxis.Valid) {z c : ℕ → ℕ → K} (hz : Generated p z c) {k i : ℕ}
    (hk : k < p.yCount) (hi : i < p.xAxis.meshCount) :
    rowAt p.xAxis.mult (lagrangeAt p.xAxis) z k i =
      bipoly p.xCount p.yCount c (p.xAxis.coordinate i)
        (p.yAxis.coordinate (k * p.yAxis.mult)) := by
  unfold rowAt
  split
  · rename_i hmod
    rw [hz k hk _ (hx.div_lt hi)]
    have hmul := Nat.div_mul_cancel (Nat.dvd_of_mod_eq_zero hmod)
    rw [← Nat.cast_mul, hmul]
  · refine (lagrange_congr fun l hl => hz k hk l hl).trans ?_
    simp only [bipoly_left]
    exact lagrange_eval (hx.injOn _) _ _

theorem meshAt_lagrange (hx : p.xAxis.Valid) (hy : p.yAxis.Valid) {z c : ℕ → ℕ → K}
    (hz : Generated p z c) {j i : ℕ} (hj : j < p.yAxis.meshCount) (hi : i < p.xAxis.meshCount) :
    meshAt p.xAxis.mult p.yAxis.mult (lagrangeAt p.xAxis) (lagrangeAt p.yAxis) z j i =
      bipoly p.xCount p.yCount c (p.xAxis.coordinate i) (p.yAxis.coordinate j) := by
  unfold meshAt
  split
  · rename_i hmod
    have hmul := Nat.div_mul_cancel (Nat.dvd_of_mod_eq_zero hmod)
    rw [rowAt_lagrange hx hz (hy.div_lt hj) hi, ← Nat.cast_mul, hmul]
  · refine (lagrange_congr fun k hk => rowAt_lagrange hx hz hk hi).trans ?_
    simp only [bipoly_right]
    exact lagrange_eval (hy.injOn _) _ _

end MeshParams

/-! ## The algorithms -/

section Sample

variable [Field K] [LinearOrder K] [IsStrictOrderedRing K]

omit [Field K] [LinearOrder K] [IsStrictOrderedRing K] in
/-- The algorithm that is left, and the counts, which do not change. -/
theorem algo_of_verifyAlgorithm {cfg cfg' : MeshConfig K} (h : verifyAlgorithm cfg = .ok cfg') :
    (cfg'.algo = "lagrange" ∨ cfg'.algo = "bicubic" ∨
      (cfg'.algo = "direct" ∧ cfg'.meshXPps = 0 ∧ cfg'.meshYPps = 0)) ∧
    cfg'.xCount = cfg.xCount ∧ cfg'.yCount = cfg.yCount := by
  unfold verifyAlgorithm at h
  dsimp only at h
  split at h
  · cases h
  · rename_i hknown
    split at h
    · rename_i hpps
      cases h
      obtain ⟨hx, hy⟩ := Nat.max_eq_zero_iff.mp hpps
      exact ⟨Or.inr (Or.inr ⟨rfl, hx, hy⟩), rfl, rfl⟩
    · split at h
      · cases h
      · split at h
        · split at h
          · cases h
          · cases h
            exact ⟨Or.inl rfl, rfl, rfl⟩
        · cases h
          refine ⟨?_, rfl, rfl⟩
          by_cases halgo : cfg.algo = "lagrange"
          · exact Or.inl halgo
          · exact Or.inr (Or.inl (by_contra fun hne => hknown ⟨halgo, hne⟩))

/-- An algorithm that is verified fills the mesh; the probed values stay, and where it is not
bicubic a polynomial is found again. -/
theorem sample_table {p : MeshParams K} {cfg : MeshConfig K}
    (hverify : verifyAlgorithm cfg = .ok p.toMeshConfig) (hx : p.xAxis.Valid) (hy : p.yAxis.Valid)
    (z : ℕ → ℕ → K) :
    ∃ g, p.sample (table p.yCount p.xCount z) =
        some (table p.yAxis.meshCount p.xAxis.meshCount g) ∧
      (∀ j < p.yCount, ∀ i < p.xCount, g (j * p.yAxis.mult) (i * p.xAxis.mult) = z j i) ∧
      (p.algo ≠ "bicubic" → ∀ c, MeshParams.Generated p z c →
        ∀ j < p.yAxis.meshCount, ∀ i < p.xAxis.meshCount, g j i =
          MeshParams.bipoly p.xCount p.yCount c (p.xAxis.coordinate i) (p.yAxis.coordinate j)) := by
  have hkept (fx fy : (ℕ → K) → ℕ → K) : ∀ j < p.yCount, ∀ i < p.xCount,
      meshAt p.xAxis.mult p.yAxis.mult fx fy z (j * p.yAxis.mult) (i * p.xAxis.mult) = z j i :=
    fun j _ i _ => meshAt_probed p.xAxis.mult_pos p.yAxis.mult_pos fx fy z j i
  rcases (algo_of_verifyAlgorithm hverify).1 with halgo | halgo | ⟨halgo, hxpps, hypps⟩
  · refine ⟨meshAt p.xAxis.mult p.yAxis.mult (MeshParams.lagrangeAt p.xAxis)
      (MeshParams.lagrangeAt p.yAxis) z, ?_, hkept _ _,
      fun _ c hz j hj i hi => MeshParams.meshAt_lagrange hx hy hz hj hi⟩
    rw [MeshParams.sample, if_pos halgo]
    exact MeshParams.sampleLagrange_table hx hy z
  · refine ⟨meshAt p.xAxis.mult p.yAxis.mult (MeshParams.bicubicAt p.tension p.xAxis)
      (MeshParams.bicubicAt p.tension p.yAxis) z, ?_, hkept _ _, fun hne => absurd halgo hne⟩
    rw [MeshParams.sample, halgo, if_neg (by decide), if_pos rfl]
    exact MeshParams.sampleBicubic_table hx hy z
  · obtain ⟨hxmult, hxcount⟩ := hx.direct hxpps
    obtain ⟨hymult, hycount⟩ := hy.direct hypps
    refine ⟨z, ?_, fun j _ i _ => by rw [hxmult, hymult, mul_one, mul_one],
      fun _ c hz j hj i hi => ?_⟩
    · rw [MeshParams.sample, halgo, if_neg (by decide), if_neg (by decide), if_pos rfl, hxcount,
        hycount]
      rfl
    · rw [hz j (hj.trans_eq hycount) i (hi.trans_eq hxcount), hxmult, hymult, Nat.cast_one, mul_one, mul_one]

end Sample

end FlsunT1.Klippy
