/-
  Klippy/MeshSurface.lean --- the surface that `calc_z` finds between the points of the mesh.
-/
import FlsunT1.Klippy.MeshSampling

set_option autoImplicit false

namespace FlsunT1.Klippy

open Library
open Library.Grid

variable {K : Type} [Field K] [LinearOrder K] [IsStrictOrderedRing K]

/-! ## Between the points of an axis -/

omit [Field K] [IsStrictOrderedRing K] in
theorem constrain_of_ge {val minVal maxVal : K} (h : maxVal ≤ val) (h' : minVal ≤ maxVal) :
    constrain val minVal maxVal = maxVal := by
  rw [constrain, max_eq_right (h'.trans h), min_eq_left h]

namespace MeshAxis

/-- A place on the axis in segments from its first point, kept inside of the mesh. -/
def place (a : MeshAxis K) (coord : K) : K :=
  constrain ((coord - a.meshMin) / a.meshDist) 0 (a.meshCount - 1)

variable {a : MeshAxis K}

theorem Valid.coordinate_sub (h : a.Valid) (coord : K) (idx : ℤ) :
    (coord - a.coordinate idx) / a.meshDist = (coord - a.meshMin) / a.meshDist - idx := by
  rw [coordinate, ← sub_sub, sub_div, mul_div_cancel_left₀ _ h.meshDist_pos.ne']

theorem Valid.place_coordinate (h : a.Valid) {i : ℕ} (hi : i < a.meshCount) :
    a.place (a.coordinate i) = i := by
  have hle : (i : K) ≤ a.meshCount - 1 := by
    have : (i : K) + 1 ≤ a.meshCount := by exact_mod_cast hi
    linarith
  rw [place, coordinate, add_sub_cancel_left, mul_div_cancel_left₀ _ h.meshDist_pos.ne',
    Int.cast_natCast, BedMesh.constrain_of_mem (Nat.cast_nonneg i) hle]

/-- `_get_linear_index` finds the segment of the place, and where it is in the segment. -/
theorem Valid.getLinearIndex_eq [FloorRing K] (h : a.Valid) (coord : K) :
    ∃ (i : ℕ) (t : K), i + 1 < a.meshCount ∧ 0 ≤ t ∧ t ≤ 1 ∧
      a.getLinearIndex coord = some (t, (i : ℤ)) ∧ (i : K) + t = a.place coord := by
  have hcount := h.two_lt_meshCount
  obtain ⟨n, hn⟩ : ∃ n, a.meshCount = n + 2 := ⟨a.meshCount - 2, by omega⟩
  have hle : (a.meshCount : ℤ) - 2 = n := by rw [hn]; push_cast; ring
  have hlast : (a.meshCount : K) - 1 = n + 1 := by rw [hn]; push_cast; ring
  have hn0 : (0 : K) ≤ n := Nat.cast_nonneg n
  unfold getLinearIndex place
  rw [if_neg h.meshDist_pos.ne']
  dsimp only
  rw [h.coordinate_sub, hle, hlast]
  generalize (coord - a.meshMin) / a.meshDist = u
  rcases lt_or_ge u 0 with hneg | hnonneg
  · -- before the first point
    have hfloor : ⌊u⌋ ≤ 0 := (Int.floor_lt.mpr (by exact_mod_cast hneg)).le
    refine ⟨0, 0, by omega, le_rfl, zero_le_one, ?_, ?_⟩
    · rw [BedMesh.constrain_of_le hfloor (by omega), Int.cast_zero, sub_zero,
        BedMesh.constrain_of_le hneg.le zero_le_one]
      rfl
    · rw [BedMesh.constrain_of_le hneg.le (by linarith), Nat.cast_zero, add_zero]
  rcases lt_or_ge u (n + 1) with hlt | hge
  · -- between two points
    obtain ⟨i, hi⟩ := Int.eq_ofNat_of_zero_le (Int.floor_nonneg.mpr hnonneg)
    have hin : i ≤ n := by
      have : ⌊u⌋ < (n : ℤ) + 1 := Int.floor_lt.mpr (by exact_mod_cast hlt)
      omega
    have hfloor := Int.floor_le u
    have hceil := Int.lt_floor_add_one u
    rw [hi, Int.cast_natCast] at hfloor hceil
    refine ⟨i, u - i, by omega, by linarith, by linarith, ?_, ?_⟩
    · rw [hi, BedMesh.constrain_of_mem (Int.natCast_nonneg i) (by exact_mod_cast hin), Int.cast_natCast,
        BedMesh.constrain_of_mem (by linarith) (by linarith)]
    · rw [BedMesh.constrain_of_mem hnonneg hlt.le, add_sub_cancel]
  · -- past the last point
    have hfloor : (n : ℤ) ≤ ⌊u⌋ := Int.le_floor.mpr (by push_cast; linarith)
    refine ⟨n, 1, by omega, zero_le_one, le_rfl, ?_, ?_⟩
    · rw [constrain_of_ge hfloor (Int.natCast_nonneg n), Int.cast_natCast,
        constrain_of_ge (by linarith) zero_le_one]
    · rw [constrain_of_ge hge (by linarith)]

theorem Valid.place_constrain (h : a.Valid) (coord : K) :
    a.place (constrain coord a.meshMin a.meshMax) = a.place coord := by
  have hdist := h.meshDist_pos
  have hcount : (2 : K) < a.meshCount := by exact_mod_cast h.two_lt_meshCount
  have hspan : (a.meshMax - a.meshMin) / a.meshDist = a.meshCount - 1 := by
    rw [meshDist, div_div_cancel₀ (sub_pos.mpr h.lt).ne']
  unfold place
  rcases lt_or_ge coord a.meshMin with hlow | hlow
  · rw [BedMesh.constrain_of_le hlow.le h.lt.le, sub_self, zero_div,
      BedMesh.constrain_of_le le_rfl (by linarith),
      BedMesh.constrain_of_le (div_nonpos_of_nonpos_of_nonneg (by linarith) hdist.le)
        (by linarith)]
  rcases lt_or_ge coord a.meshMax with hhigh | hhigh
  · rw [BedMesh.constrain_of_mem hlow hhigh.le]
  · have hpast : (a.meshCount : K) - 1 ≤ (coord - a.meshMin) / a.meshDist := by
      rw [← hspan]
      exact div_le_div_of_nonneg_right (by linarith) hdist.le
    rw [constrain_of_ge hhigh h.lt.le, hspan, constrain_of_ge le_rfl (by linarith),
      constrain_of_ge hpast (by linarith)]

end MeshAxis

/-! ## The surface -/

/-- The surface that interpolates the points of the mesh. -/
def MeshParams.surface (p : MeshParams K) (g : ℕ → ℕ → K) (x y : K) : K :=
  ∑ j ∈ Finset.range p.yAxis.meshCount,
    (∑ i ∈ Finset.range p.xAxis.meshCount, g j i * hat (p.xAxis.place x - i)) *
      hat (p.yAxis.place y - j)

section Surface

variable {p : MeshParams K}

theorem surface_coordinate (hx : p.xAxis.Valid) (hy : p.yAxis.Valid) (g : ℕ → ℕ → K) {i j : ℕ}
    (hi : i < p.xAxis.meshCount) (hj : j < p.yAxis.meshCount) :
    p.surface g (p.xAxis.coordinate i) (p.yAxis.coordinate j) = g j i := by
  unfold MeshParams.surface
  rw [hx.place_coordinate hi, hy.place_coordinate hj,
    sum_hat_natCast (fun j => ∑ i' ∈ Finset.range p.xAxis.meshCount, g j i' * hat ((i : K) - i')) hj,
    sum_hat_natCast (g j) hi]

theorem surface_constrain (hx : p.xAxis.Valid) (hy : p.yAxis.Valid) (g : ℕ → ℕ → K) (x y : K) :
    p.surface g (constrain x p.minX p.maxX) (constrain y p.minY p.maxY) = p.surface g x y := by
  unfold MeshParams.surface
  rw [← hx.place_constrain x, ← hy.place_constrain y]
  rfl

theorem ZMesh.calcZ_eq [FloorRing K] {m : ZMesh K} (hx : m.meshParams.xAxis.Valid)
    (hy : m.meshParams.yAxis.Valid) {g : ℕ → ℕ → K}
    (htable : m.meshMatrix =
      some (table m.meshParams.yAxis.meshCount m.meshParams.xAxis.meshCount g)) (x y : K) :
    m.calcZ x y =
      some (m.meshParams.surface g (x + m.meshOffsets.1) (y + m.meshOffsets.2)) := by
  obtain ⟨i, tx, hi, hx0, hx1, hxindex, hxplace⟩ := hx.getLinearIndex_eq (x + m.meshOffsets.1)
  obtain ⟨j, ty, hj, hy0, hy1, hyindex, hyplace⟩ := hy.getLinearIndex_eq (y + m.meshOffsets.2)
  have hrow {k : ℕ} (hk : k < m.meshParams.yAxis.meshCount) :
      getItem (table m.meshParams.yAxis.meshCount m.meshParams.xAxis.meshCount g) k =
        some ((List.range m.meshParams.xAxis.meshCount).map (g k)) := by
    rw [getItem_natCast, table_getElem? hk]
  have hcell (k : ℕ) {l : ℕ} (hl : l < m.meshParams.xAxis.meshCount) :
      getItem ((List.range m.meshParams.xAxis.meshCount).map (g k)) l = some (g k l) := by
    rw [getItem_natCast, List.getElem?_map, List.getElem?_range hl]
    rfl
  have hvalue : m.meshParams.surface g (x + m.meshOffsets.1) (y + m.meshOffsets.2) =
      lerp ty (lerp tx (g j i) (g j (i + 1))) (lerp tx (g (j + 1) i) (g (j + 1) (i + 1))) := by
    unfold MeshParams.surface lerp
    simp only [← hxplace, ← hyplace, sum_hat _ hi hx0 hx1, sum_hat _ hj hy0 hy1]
  unfold calcZ
  rw [htable, hvalue]
  dsimp only
  rw [hxindex, hyindex]
  simp only [Option.bind_eq_bind, Option.bind_some, hrow (Nat.lt_of_succ_lt hj),
    ← Nat.cast_succ, hrow hj, hcell _ (Nat.lt_of_succ_lt hi), hcell _ hi]

/-- The mesh as the move transform has it. -/
def ZMesh.toMesh (m : ZMesh K) (g : ℕ → ℕ → K) : Option (Mesh K) :=
  m.getZRange.map fun range =>
    { surface := m.meshParams.surface g
      meshOffsets := m.meshOffsets
      avgZ := m.avgZ
      minZ := range.1
      maxZ := range.2 }

/-- The move transform sees the heights that `calc_z` finds. -/
theorem ZMesh.calcZ_toMesh [FloorRing K] {m : ZMesh K} (hx : m.meshParams.xAxis.Valid)
    (hy : m.meshParams.yAxis.Valid) {g : ℕ → ℕ → K}
    (htable : m.meshMatrix =
      some (table m.meshParams.yAxis.meshCount m.meshParams.xAxis.meshCount g)) {mesh : Mesh K}
    (hmesh : m.toMesh g = some mesh) (x y : K) : m.calcZ x y = some (mesh.calcZ x y) := by
  obtain ⟨range, -, rfl⟩ := Option.map_eq_some_iff.mp hmesh
  exact ZMesh.calcZ_eq hx hy htable x y

theorem continuous_place (a : MeshAxis ℝ) : Continuous a.place :=
  continuous_const.min
    (continuous_const.max ((continuous_id.sub continuous_const).div_const a.meshDist))

theorem continuous_surface (p : MeshParams ℝ) (g : ℕ → ℕ → ℝ) :
    Continuous fun q : ℝ × ℝ => p.surface g q.1 q.2 := by
  have hhat (a : MeshAxis ℝ) (k : ℕ) : Continuous fun x => hat (a.place x - k) :=
    continuous_hat.comp ((continuous_place a).sub continuous_const)
  apply continuous_finsetSum
  intro j _
  apply Continuous.mul
  · apply continuous_finsetSum
    intro i _
    exact continuous_const.mul ((hhat p.xAxis i).comp continuous_fst)
  · exact (hhat p.yAxis j).comp continuous_snd

end Surface

/-! ## The mesh that is built -/

section Build

omit [IsStrictOrderedRing K] [LinearOrder K] in
theorem exists_extreme {f : List K → Option K} (hf : ∀ l, l ≠ [] → (f l).isSome = true)
    {tbl : List (List K)} (htbl : tbl ≠ []) (hrows : ∀ row ∈ tbl, row ≠ []) :
    ∃ vs v, tbl.mapM f = some vs ∧ f vs = some v := by
  have hvalues := mapM_eq_some_map (f := f) (g := fun row => (f row).getD 0) (l := tbl)
    fun row hrow => by
      obtain ⟨v, hv⟩ := Option.isSome_iff_exists.mp (hf row (hrows row hrow))
      rw [hv]
      rfl
  have hne : tbl.map (fun row => (f row).getD 0) ≠ [] := fun hnil => htbl (List.map_eq_nil_iff.mp hnil)
  obtain ⟨v, hv⟩ := Option.isSome_iff_exists.mp (hf _ hne)
  exact ⟨_, v, hvalues, hv⟩

omit [IsStrictOrderedRing K] in
theorem printMesh_table {m : ZMesh K} {g : ℕ → ℕ → K} (hx : 0 < m.meshParams.xAxis.meshCount)
    (hy : 0 < m.meshParams.yAxis.meshCount)
    (htable : m.meshMatrix =
      some (table m.meshParams.yAxis.meshCount m.meshParams.xAxis.meshCount g)) :
    m.printMesh = some () := by
  obtain ⟨htbl, hrows⟩ := table_ne_nil hy hx g
  obtain ⟨mins, lo, hmins, hlo⟩ :=
    exists_extreme (fun _ h => List.isSome_min?_of_ne_nil h) htbl hrows
  obtain ⟨maxs, hi, hmaxs, hhi⟩ :=
    exists_extreme (fun _ h => List.isSome_max?_of_ne_nil h) htbl hrows
  have hlines := mapM_eq_some_map
    (f := fun j => (table m.meshParams.yAxis.meshCount m.meshParams.xAxis.meshCount g)[j]?)
    (g := fun j => (List.range m.meshParams.xAxis.meshCount).map (g j))
    (l := (List.range m.meshParams.yAxis.meshCount).reverse)
    fun j hj => table_getElem? (List.mem_range.mp (List.mem_reverse.mp hj))
  unfold ZMesh.printMesh ZMesh.getZRange
  rw [htable]
  simp only [Option.bind_eq_bind, hmins, hlo, hmaxs, hhi, Option.bind_some, Option.getD_some,
    hlines]

omit [IsStrictOrderedRing K] in
theorem buildMesh_table [FloorRing K] {m : ZMesh K} {zMatrix : List (List K)} {g : ℕ → ℕ → K}
    (hx : m.meshParams.xAxis.Valid) (hy : m.meshParams.yAxis.Valid)
    (hsample : m.meshParams.sample zMatrix =
      some (table m.meshParams.yAxis.meshCount m.meshParams.xAxis.meshCount g)) :
    ∃ built, m.buildMesh zMatrix = some built ∧ built.meshParams = m.meshParams ∧
      built.meshMatrix =
        some (table m.meshParams.yAxis.meshCount m.meshParams.xAxis.meshCount g) ∧
      built.meshOffsets = m.meshOffsets := by
  have hxpos : 0 < m.meshParams.xAxis.meshCount := by have := hx.two_lt_meshCount; omega
  have hypos : 0 < m.meshParams.yAxis.meshCount := by have := hy.two_lt_meshCount; omega
  unfold ZMesh.buildMesh
  rw [hsample]
  simp only [Option.bind_eq_bind, Option.bind_some]
  rw [if_neg (count_table_pos hypos hxpos g).ne']
  refine ⟨_, Option.bind_eq_some_iff.mpr ⟨(), ?_, rfl⟩, rfl, rfl, rfl⟩
  exact printMesh_table hxpos hypos rfl

end Build

/-- Every algorithm that is verified fills the mesh from any matrix of probed values: these stay,
and `calc_z` finds them at their points; without the bicubic algorithm a polynomial through them
is found again at all points; `calc_z` is continuous, and outside of the mesh it is as at the
nearest point of the border. -/
theorem buildMesh_interpolates {cfg : MeshConfig ℝ} {p : MeshParams ℝ} {zMatrix : List (List ℝ)}
    (hverify : verifyAlgorithm cfg = .ok p.toMeshConfig) (hxcount : 3 ≤ cfg.xCount)
    (hycount : 3 ≤ cfg.yCount) (hxlt : p.minX < p.maxX) (hylt : p.minY < p.maxY)
    (hrows : zMatrix.length = p.yCount) (hcolumns : ∀ row ∈ zMatrix, row.length = p.xCount) :
    ∃ m tbl, (ZMesh.init p).bind (ZMesh.buildMesh zMatrix) = some m ∧ m.meshMatrix = some tbl ∧
      (∀ j < p.yCount, ∀ i < p.xCount, ∃ z, cell zMatrix j i = some z ∧
        cell tbl (j * p.yAxis.mult) (i * p.xAxis.mult) = some z ∧
        m.calcZ (p.xAxis.coordinate (i * p.xAxis.mult))
          (p.yAxis.coordinate (j * p.yAxis.mult)) = some z) ∧
      (p.algo ≠ "bicubic" → ∀ c,
        (∀ j < p.yCount, ∀ i < p.xCount, cell zMatrix j i =
          some (MeshParams.bipoly p.xCount p.yCount c
            (p.xAxis.coordinate (i * p.xAxis.mult)) (p.yAxis.coordinate (j * p.yAxis.mult)))) →
        ∀ j < p.yAxis.meshCount, ∀ i < p.xAxis.meshCount, cell tbl j i =
          some (MeshParams.bipoly p.xCount p.yCount c (p.xAxis.coordinate i)
            (p.yAxis.coordinate j))) ∧
      (∃ f : ℝ × ℝ → ℝ, Continuous f ∧ ∀ x y, m.calcZ x y = some (f (x, y))) ∧
      ∀ x y, m.calcZ (constrain x p.minX p.maxX) (constrain y p.minY p.maxY) = m.calcZ x y := by
  obtain ⟨-, hxc, hyc⟩ := algo_of_verifyAlgorithm hverify
  have hx : p.xAxis.Valid := ⟨hxcount.trans_eq hxc.symm, hxlt⟩
  have hy : p.yAxis.Valid := ⟨hycount.trans_eq hyc.symm, hylt⟩
  have hxmesh := hx.two_lt_meshCount
  have hymesh := hy.two_lt_meshCount
  obtain ⟨z, rfl⟩ := exists_table hrows hcolumns
  obtain ⟨g, hsample, hkept, hpoly⟩ := sample_table hverify hx hy z
  obtain ⟨m, hbuild, hparams, htable, hoffsets⟩ :=
    buildMesh_table (m := ZMesh.empty p) hx hy hsample
  change m.meshParams = p at hparams
  change m.meshMatrix = some (table p.yAxis.meshCount p.xAxis.meshCount g) at htable
  change m.meshOffsets = (0, 0) at hoffsets
  have hcalc (x y : ℝ) : m.calcZ x y = some (p.surface g x y) := by
    rw [ZMesh.calcZ_eq (hparams ▸ hx) (hparams ▸ hy) (hparams ▸ htable), hparams, hoffsets,
      add_zero, add_zero]
  refine ⟨m, _, ?_, htable, ?_, ?_, ?_, ?_⟩
  · rw [ZMesh.init, if_neg (by omega)]
    exact hbuild
  · intro j hj i hi
    refine ⟨z j i, cell_table hj hi, ?_, ?_⟩
    · rw [cell_table (hy.mul_lt hj) (hx.mul_lt hi), hkept j hj i hi]
    · have hpoint := surface_coordinate hx hy g (hx.mul_lt hi) (hy.mul_lt hj)
      rw [Nat.cast_mul, Nat.cast_mul, hkept j hj i hi] at hpoint
      rw [hcalc, hpoint]
  · intro halgo c hz j hj i hi
    rw [cell_table hj hi, hpoly halgo c _ j hj i hi]
    intro k hk l hl
    exact Option.some.inj ((cell_table hk hl).symm.trans (hz k hk l hl))
  · exact ⟨_, continuous_surface p g, hcalc⟩
  · intro x y
    rw [hcalc, hcalc, surface_constrain hx hy]

/-- Three points by three, with a point between those of a row. -/
noncomputable def smallMesh : MeshParams ℝ where
  xCount := 3
  yCount := 3
  meshXPps := 1
  meshYPps := 0
  algo := "lagrange"
  tension := 0
  minX := 0
  maxX := 2
  minY := 0
  maxY := 1

theorem buildMesh_interpolates_small :
    ∃ m, (ZMesh.init smallMesh).bind (ZMesh.buildMesh [[0, 0, 0], [0, 1, 0], [0, 0, 0]]) = some m ∧
      ∃ f : ℝ × ℝ → ℝ, Continuous f ∧ ∀ x y, m.calcZ x y = some (f (x, y)) := by
  have hverify : verifyAlgorithm smallMesh.toMeshConfig = .ok smallMesh.toMeshConfig := rfl
  have hrows : ([[0, 0, 0], [0, 1, 0], [0, 0, 0]] : List (List ℝ)).length = smallMesh.yCount := rfl
  obtain ⟨m, tbl, hbuild, -, -, -, hcontinuous, -⟩ :=
    buildMesh_interpolates hverify le_rfl le_rfl two_pos one_pos hrows (by
      intro row hrow
      rw [List.mem_cons, List.mem_cons, List.mem_singleton] at hrow
      rcases hrow with rfl | rfl | rfl <;> rfl)
  exact ⟨m, hbuild, hcontinuous⟩

end FlsunT1.Klippy
