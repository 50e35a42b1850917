/-
  Klippy/ZMesh.lean --- the mesh between the probed points (class ZMesh of
  klippy/extras/bed_mesh.py).

  `none` is an exception: an index that is out of range, a division by zero, or an error that the
  code raises.  Python counts negative indices from the end.
-/
import FlsunT1.Klippy.BedMesh
import FlsunT1.Library.Grid
import FlsunT1.Library.Interpolation
import FlsunT1.Library.Rounding

set_option autoImplicit false

namespace FlsunT1.Klippy

open Library
open Library.Grid

/-- `l[i]` -/
def getItem {α : Type} (l : List α) (i : ℤ) : Option α :=
  if 0 ≤ i then l[i.toNat]?
  else if 0 ≤ l.length + i then l[(l.length + i).toNat]?
  else none

/-- `range(start, stop, step)`, for a step that is positive. -/
def rangeStep (start stop step : ℤ) : List ℤ :=
  ((List.range (stop - start).toNat).map fun k : ℕ => start + k * step).filter (· < stop)

/-! ## The options -/

/-- The parameters that `_verify_algorithm` looks at. -/
structure MeshConfig (K : Type) where
  xCount : ℕ
  yCount : ℕ
  meshXPps : ℕ
  meshYPps : ℕ
  algo : String
  tension : K

/-- The errors of `_verify_algorithm`, with what they print. -/
inductive AlgorithmError
  /-- "bed_mesh: Unknown algorithm" -/
  | unknown (algo : String)
  /-- "bed_mesh: cannot exceed a probe_count of 6 when using lagrange interpolation." -/
  | lagrange (xCount yCount : ℕ)
  /-- "bed_mesh: invalid probe_count option when using bicubic interpolation." -/
  | bicubic (xCount yCount : ℕ)
  deriving DecidableEq

section Config

variable {K : Type}

/-- `_verify_algorithm`, with the configuration that it leaves. -/
def verifyAlgorithm (params : MeshConfig K) : Except AlgorithmError (MeshConfig K) :=
  let maxProbeCnt := max params.xCount params.yCount
  let minProbeCnt := min params.xCount params.yCount
  if params.algo ≠ "lagrange" ∧ params.algo ≠ "bicubic" then .error (.unknown params.algo)
  else if max params.meshXPps params.meshYPps = 0 then .ok { params with algo := "direct" }
  else if params.algo = "lagrange" ∧ 6 < maxProbeCnt then
    .error (.lagrange params.xCount params.yCount)
  else if params.algo = "bicubic" ∧ minProbeCnt < 4 then
    if 6 < maxProbeCnt then .error (.bicubic params.xCount params.yCount)
    else .ok { params with algo := "lagrange" }
  else .ok params

/-- The parameters of a mesh. -/
structure MeshParams (K : Type) extends MeshConfig K where
  minX : K
  maxX : K
  minY : K
  maxY : K

/-- What `ZMesh.__init__` keeps of one axis. -/
structure MeshAxis (K : Type) where
  meshMin : K
  meshMax : K
  probeCount : ℕ
  pps : ℕ

def MeshParams.xAxis (p : MeshParams K) : MeshAxis K where
  meshMin := p.minX
  meshMax := p.maxX
  probeCount := p.xCount
  pps := p.meshXPps

def MeshParams.yAxis (p : MeshParams K) : MeshAxis K where
  meshMin := p.minY
  meshMax := p.maxY
  probeCount := p.yCount
  pps := p.meshYPps

end Config

variable {K : Type} [Field K] [LinearOrder K]

namespace MeshAxis

/-- `x_mult`, `y_mult` -/
def mult (a : MeshAxis K) : ℕ := a.pps + 1

/-- `mesh_x_count`, `mesh_y_count` -/
def meshCount (a : MeshAxis K) : ℕ := (a.probeCount - 1) * a.pps + a.probeCount

/-- `mesh_x_dist`, `mesh_y_dist` -/
def meshDist (a : MeshAxis K) : K := (a.meshMax - a.meshMin) / (a.meshCount - 1)

/-- `get_x_coordinate`, `get_y_coordinate` -/
def coordinate (a : MeshAxis K) (index : ℤ) : K := a.meshMin + a.meshDist * index

/-- `_get_linear_index` -/
def getLinearIndex [FloorRing K] (a : MeshAxis K) (coord : K) : Option (K × ℤ) :=
  if a.meshDist = 0 then none
  else
    let idx := constrain ⌊(coord - a.meshMin) / a.meshDist⌋ 0 ((a.meshCount : ℤ) - 2)
    some (constrain ((coord - a.coordinate idx) / a.meshDist) 0 1, idx)

end MeshAxis

/-! ## The interpolation -/

/-- The control points of a spline, and the place between the middle two. -/
structure CtlPts (K : Type) where
  p0 : K
  p1 : K
  p2 : K
  p3 : K
  t : K

/-- The factors `n` and `d` of point `i` in `_calc_lagrange`. -/
def lagrangeFactors (ptCnt : ℕ) (lpts : ℕ → K) (c : K) (i : ℕ) : K × K :=
  (List.range ptCnt).foldl (fun nd j =>
    if j = i then nd else (nd.1 * (c - lpts j), nd.2 * (lpts i - lpts j))) (1, 1)

/-- `_calc_lagrange`; `z` gives the height at a point. -/
def calcLagrange (ptCnt : ℕ) (lpts : ℕ → K) (c : K) (z : ℕ → Option K) : Option K :=
  (List.range ptCnt).foldlM (fun total i =>
    let nd := lagrangeFactors ptCnt lpts c i
    (z i).bind fun z => if nd.2 = 0 then none else some (total + z * nd.1 / nd.2)) 0

/-- `_get_x_ctl_pts`, `_get_y_ctl_pts`; `row` gives the height at an index of the line. -/
def getCtlPts (a : MeshAxis K) (row : ℤ → Option K) (x : ℤ) : Option (CtlPts K) :=
  let mult : ℤ := a.mult
  let lastPt : ℤ := a.meshCount - 1 - mult
  if x < mult then do
    let p1 ← row 0
    let p2 ← row mult
    let p3 ← row (2 * mult)
    some { p0 := p1, p1 := p1, p2 := p2, p3 := p3, t := (x : K) / mult }
  else if lastPt < x then do
    let p0 ← row (lastPt - mult)
    let p1 ← row lastPt
    let p2 ← row (lastPt + mult)
    some { p0 := p0, p1 := p1, p2 := p2, p3 := p2, t := ((x - lastPt : ℤ) : K) / mult }
  else
    match (rangeStep mult lastPt mult).find? fun i => i < x ∧ x < i + mult with
    | none => none
    | some i => do
      let p0 ← row (i - mult)
      let p1 ← row i
      let p2 ← row (i + mult)
      let p3 ← row (i + 2 * mult)
      some { p0 := p0, p1 := p1, p2 := p2, p3 := p3, t := ((x - i : ℤ) : K) / mult }

/-- `_cardinal_spline` -/
def cardinalSpline (p : CtlPts K) (tension : K) : K :=
  let t := p.t
  let t2 := t * t
  let t3 := t2 * t
  let m1 := tension * (p.p2 - p.p0)
  let m2 := tension * (p.p3 - p.p1)
  let a := p.p1 * (2 * t3 - 3 * t2 + 1)
  let b := p.p2 * (-2 * t3 + 3 * t2)
  let c := m1 * (t3 - 2 * t2 + t)
  let d := m2 * (t3 - t2)
  a + b + c + d

namespace MeshParams

variable (p : MeshParams K)

/-- The matrix that has the probed values in the corners of its segments. -/
def probedCells (zMatrix : List (List K)) : Option (List (List K)) :=
  (List.range p.yAxis.meshCount).mapM fun j =>
    (List.range p.xAxis.meshCount).mapM fun i =>
      if i % p.xAxis.mult ≠ 0 ∨ j % p.yAxis.mult ≠ 0 then some 0
      else cell zMatrix (j / p.yAxis.mult) (i / p.xAxis.mult)

/-- The loop over the rows that have probed points. -/
def interpolateX (value : List (List K) → ℕ → ℕ → Option K) :
    List (List K) → Option (List (List K)) :=
  fill p.yAxis.meshCount p.xAxis.meshCount (fun i => i % p.yAxis.mult != 0)
    (fun j => j % p.xAxis.mult == 0) value setCell

/-- The loop over all columns. -/
def interpolateY (value : List (List K) → ℕ → ℕ → Option K) :
    List (List K) → Option (List (List K)) :=
  fill p.xAxis.meshCount p.yAxis.meshCount (fun _ => false)
    (fun j => j % p.yAxis.mult == 0) value (fun i j => setCell j i)

/-- `_sample_lagrange` -/
def sampleLagrange (zMatrix : List (List K)) : Option (List (List K)) := do
  let m ← p.probedCells zMatrix
  let xpts (i : ℕ) : K := p.xAxis.coordinate (i * p.xAxis.mult)
  let ypts (j : ℕ) : K := p.yAxis.coordinate (j * p.yAxis.mult)
  let m ← p.interpolateX (fun m i j =>
    calcLagrange p.xCount xpts (p.xAxis.coordinate j) fun k => cell m i (k * p.xAxis.mult)) m
  p.interpolateY (fun m i j =>
    calcLagrange p.yCount ypts (p.yAxis.coordinate j) fun k => cell m (k * p.yAxis.mult) i) m

/-- `_sample_bicubic` -/
def sampleBicubic (zMatrix : List (List K)) : Option (List (List K)) := do
  let m ← p.probedCells zMatrix
  let m ← p.interpolateX (fun m y x => do
    let row ← m[y]?
    let pts ← getCtlPts p.xAxis (getItem row) x
    some (cardinalSpline pts p.tension)) m
  p.interpolateY (fun m x y => do
    let pts ← getCtlPts p.yAxis (fun i => (getItem m i).bind fun row => row[x]?) y
    some (cardinalSpline pts p.tension)) m

/-- `_sample`; an algorithm that is not in the table is `None`, which cannot be called. -/
def sample (zMatrix : List (List K)) : Option (List (List K)) :=
  if p.algo = "lagrange" then p.sampleLagrange zMatrix
  else if p.algo = "bicubic" then p.sampleBicubic zMatrix
  else if p.algo = "direct" then some zMatrix
  else none

end MeshParams

/-! ## The mesh -/

structure ZMesh (K : Type) where
  meshParams : MeshParams K
  probedMatrix : Option (List (List K))
  meshMatrix : Option (List (List K))
  avgZ : K
  meshOffsets : K × K

namespace ZMesh

/-- A mesh before it is built. -/
def empty (params : MeshParams K) : ZMesh K where
  meshParams := params
  probedMatrix := none
  meshMatrix := none
  avgZ := 0
  meshOffsets := (0, 0)

/-- `ZMesh.__init__` -/
def init (params : MeshParams K) : Option (ZMesh K) :=
  if params.xAxis.meshCount = 1 ∨ params.yAxis.meshCount = 1 then none
  else some (empty params)

/-- `get_z_range` -/
def getZRange (m : ZMesh K) : Option (K × K) :=
  match m.meshMatrix with
  | none => some (0, 0)
  | some tbl => do
    let mins ← tbl.mapM List.min?
    let meshMin ← mins.min?
    let maxs ← tbl.mapM List.max?
    let meshMax ← maxs.max?
    some (meshMin, meshMax)

/-- `print_mesh`, as far as it may raise. -/
def printMesh (m : ZMesh K) : Option Unit := do
  let _ ← m.getZRange
  let _ ← (List.range m.meshParams.yAxis.meshCount).reverse.mapM fun y =>
    (m.meshMatrix.getD [[]])[y]?
  some ()

/-- `build_mesh` -/
def buildMesh [FloorRing K] (zMatrix : List (List K)) (m : ZMesh K) : Option (ZMesh K) := do
  let tbl ← m.meshParams.sample zMatrix
  let total : K := (tbl.map fun row => row.foldl (· + ·) 0).foldl (· + ·) 0
  let count : ℕ := (tbl.map List.length).foldl (· + ·) 0
  if count = 0 then none
  else
    let built : ZMesh K :=
      { m with
        probedMatrix := some zMatrix
        meshMatrix := some tbl
        avgZ := (roundHalfEven (total / (count : K) * 100) : K) / 100 }
    let _ ← built.printMesh
    some built

/-- `calc_z` -/
def calcZ [FloorRing K] (m : ZMesh K) (x y : K) : Option K :=
  match m.meshMatrix with
  | none => some 0
  | some tbl => do
    let (tx, xidx) ← m.meshParams.xAxis.getLinearIndex (x + m.meshOffsets.1)
    let (ty, yidx) ← m.meshParams.yAxis.getLinearIndex (y + m.meshOffsets.2)
    let row0 ← getItem tbl yidx
    let row1 ← getItem tbl (yidx + 1)
    let z00 ← getItem row0 xidx
    let z01 ← getItem row0 (xidx + 1)
    let z10 ← getItem row1 xidx
    let z11 ← getItem row1 (xidx + 1)
    some (lerp ty (lerp tx z00 z01) (lerp tx z10 z11))

end ZMesh

end FlsunT1.Klippy
