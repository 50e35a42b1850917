/-
  Klippy/BedMesh.lean --- the move transform of a bed mesh (class BedMesh of
  klippy/extras/bed_mesh.py).

  The toolhead stands where the last of the moves that it was given ends.  `get_offset` of the
  closed library is a parameter.
-/
import Mathlib.Tactic.FieldSimp
import Mathlib.Tactic.Ring
import FlsunT1.Klippy.MoveSplitter
import FlsunT1.Library.Run

set_option autoImplicit false

namespace FlsunT1.Klippy

open Library

variable {K : Type} [Field K] [LinearOrder K]

/-! ## The state -/

/-- A mesh: its surface, where it is looked up, its average height as it was rounded, and the range
of its heights. -/
structure Mesh (K : Type) where
  surface : K → K → K
  meshOffsets : K × K
  avgZ : K
  minZ : K
  maxZ : K

/-- `calc_z` -/
def Mesh.calcZ (mesh : Mesh K) (x y : K) : K :=
  mesh.surface (x + mesh.meshOffsets.1) (y + mesh.meshOffsets.2)

/-- `set_mesh_offsets`, of a mesh -/
def Mesh.setMeshOffsets (mesh : Mesh K) (x y : Option K) : Mesh K :=
  { mesh with meshOffsets := (x.getD mesh.meshOffsets.1, y.getD mesh.meshOffsets.2) }

/-- `FADE_DISABLE` -/
def fadeDisable : K := 2 ^ 31 - 1

/-- The options that say how the mesh fades out. -/
structure FadeConfig (K : Type) where
  fadeStart : K
  fadeEnd : K
  fadeDist : K
  baseFadeTarget : Option K

/-- What `BedMesh.__init__` makes of the options. -/
def FadeConfig.init (fadeStart fadeEnd : K) (fadeTarget : Option K) : FadeConfig K :=
  if fadeEnd - fadeStart ≤ 0 then
    { fadeStart := fadeDisable
      fadeEnd := fadeDisable
      fadeDist := fadeEnd - fadeStart
      baseFadeTarget := fadeTarget }
  else
    { fadeStart := fadeStart
      fadeEnd := fadeEnd
      fadeDist := fadeEnd - fadeStart
      baseFadeTarget := fadeTarget }

/-- The errors of `set_mesh`, with what they print. -/
inductive SetMeshError (K : Type)
  | fadeTarget (minZ maxZ fadeTarget : K)
  | fadeRange (fadeDist minZ maxZ : K)

/-- What changes of `BedMesh`, with the splitter that it initializes and the toolhead. -/
structure BedMesh (K : Type) where
  zMesh : Option (Mesh K)
  fadeTarget : K
  lastPosition : Position K
  splitterMesh : Option (Mesh K)
  fadeOffset : K
  toolheadPos : Position K

namespace BedMesh

section Transform

variable (cfg : FadeConfig K)

/-- Before a mesh is set. -/
def init (toolheadPos : Position K) : BedMesh K where
  zMesh := none
  fadeTarget := 0
  lastPosition := 0
  splitterMesh := none
  fadeOffset := 0
  toolheadPos := toolheadPos

/-- `get_z_factor` -/
def getZFactor (zPos : K) : K :=
  if cfg.fadeEnd ≤ zPos then 0
  else if cfg.fadeStart ≤ zPos then (cfg.fadeEnd - zPos) / cfg.fadeDist
  else 1

/-- The factor that `get_position` finds at height `z` of the toolhead, where the mesh has the
height `maxAdj`; `none` where it divides by zero. -/
def findFactor (fadeTarget maxAdj z : K) : Option K :=
  let zAdj := maxAdj - fadeTarget
  if cfg.fadeEnd ≤ min z (z - maxAdj) then some 0
  else if cfg.fadeStart ≤ max z (z - maxAdj) then
    if cfg.fadeDist - zAdj = 0 then none
    else some (constrain ((cfg.fadeEnd + fadeTarget - z) / (cfg.fadeDist - zAdj)) 0 1)
  else some 1

/-- `get_position` -/
def getPosition (s : BedMesh K) : Option (Position K) :=
  match s.zMesh with
  | none => some (s.toolheadPos.raise (-s.fadeTarget))
  | some mesh =>
    let maxAdj := mesh.calcZ (s.toolheadPos 0) (s.toolheadPos 1)
    (findFactor cfg s.fadeTarget maxAdj (s.toolheadPos 2)).map fun factor =>
      s.toolheadPos.raise (-(factor * (maxAdj - s.fadeTarget) + s.fadeTarget))

/-- `gcode_move.reset_last_position`, as far as the mesh goes; what it raises changes nothing. -/
def resetLastPosition (s : BedMesh K) : BedMesh K :=
  { s with lastPosition := (s.getPosition cfg).getD s.lastPosition }

/-- The fade target for a mesh, or the error and no mesh at all. -/
def fadeTargetFor (mesh : Mesh K) : Except (SetMeshError K) K :=
  if cfg.fadeEnd ≠ fadeDisable then
    let fadeTarget := cfg.baseFadeTarget.getD mesh.avgZ
    if cfg.baseFadeTarget ≠ none ∧ ¬ (mesh.minZ ≤ fadeTarget ∧ fadeTarget ≤ mesh.maxZ) ∧
        fadeTarget ≠ 0 then
      .error (.fadeTarget mesh.minZ mesh.maxZ fadeTarget)
    else if cfg.fadeDist ≤ max |mesh.minZ| |mesh.maxZ| then
      .error (.fadeRange cfg.fadeDist mesh.minZ mesh.maxZ)
    else .ok fadeTarget
  else .ok 0

/-- `set_mesh`, and the error that it raises. -/
def setMesh (mesh : Option (Mesh K)) (s : BedMesh K) : BedMesh K × Option (SetMeshError K) :=
  match mesh with
  | none =>
    (resetLastPosition cfg
      { s with zMesh := none, fadeTarget := 0, splitterMesh := none, fadeOffset := 0 }, none)
  | some mesh =>
    match fadeTargetFor cfg mesh with
    | .error e => ({ s with zMesh := none, fadeTarget := 0 }, some e)
    | .ok fadeTarget =>
      (resetLastPosition cfg
        { s with
          zMesh := some mesh
          fadeTarget := fadeTarget
          splitterMesh := some mesh
          fadeOffset := fadeTarget }, none)

/-- `cmd_BED_MESH_OFFSET`: the splitter has the same mesh. -/
def setMeshOffsets (x y : Option K) (s : BedMesh K) : BedMesh K :=
  match s.zMesh with
  | none => s
  | some mesh =>
    resetLastPosition cfg
      { s with
        zMesh := some (mesh.setMeshOffsets x y)
        splitterMesh := s.splitterMesh.map fun mesh => mesh.setMeshOffsets x y }

section Move

variable (splitter : SplitterConfig K) (sqrt : K → K)
  (getOffset : K × K → K × K → K × K → K → K → K) (deltaSplitOffset : K)

/-- A point of a split move, as it is given to the toolhead. -/
def splitMove (lastPosition newpos : Position K) (factor : K) (point : Position K) : Position K :=
  let moveDistance :=
    sqrt ((newpos 0 - lastPosition 0) ^ 2 + (newpos 1 - lastPosition 1) ^ 2)
  if 10 < moveDistance then
    point.raise (-(getOffset (lastPosition 0, lastPosition 1) (newpos 0, newpos 1)
      (point 0, point 1) deltaSplitOffset moveDistance * factor))
  else point

/-- `move`: what the toolhead is given. -/
def toolheadMoves (fuel : ℕ) (newpos : Position K) (s : BedMesh K) : Option (List (Position K)) :=
  let factor := getZFactor cfg (newpos 2)
  if s.zMesh.isNone ∨ factor = 0 then some [newpos.raise s.fadeTarget]
  else
    match s.splitterMesh with
    | none => none
    | some mesh =>
      ((MoveSplitter.buildMove mesh.calcZ s.fadeOffset sqrt s.lastPosition newpos factor).traverse
        splitter mesh.calcZ s.fadeOffset fuel).map
          (List.map (splitMove sqrt getOffset deltaSplitOffset s.lastPosition newpos factor))

/-- `move` -/
def move (fuel : ℕ) (newpos : Position K) (s : BedMesh K) : Option (BedMesh K) :=
  (s.toolheadMoves cfg splitter sqrt getOffset deltaSplitOffset fuel newpos).map fun moves =>
    { s with toolheadPos := moves.getLastD s.toolheadPos, lastPosition := newpos }

end Move

/-! ## When a position is found again -/

/-- The height at which the toolhead is sent to `z`. -/
def sentHeight (fadeTarget maxAdj z : K) : K :=
  z + getZFactor cfg z * (maxAdj - fadeTarget) + fadeTarget

/-- Where the mesh has the height `maxAdj`, the position at height `z` is found again.  In the fade
region and above it the tests see the height to which the toolhead is sent. -/
def Recovered (fadeTarget maxAdj z : K) : Prop :=
  let zAdj := maxAdj - fadeTarget
  if z < cfg.fadeStart then z + maxAdj < cfg.fadeStart ∨ zAdj < cfg.fadeDist
  else if z < cfg.fadeEnd then
    let top := z + (cfg.fadeEnd - z) / cfg.fadeDist * zAdj + fadeTarget
    zAdj = 0 ∨ (min top (top - maxAdj) < cfg.fadeEnd ∧ cfg.fadeStart ≤ max top (top - maxAdj) ∧
      zAdj ≠ cfg.fadeDist)
  else
    let top := z + fadeTarget
    zAdj = 0 ∨ cfg.fadeEnd ≤ min top (top - maxAdj) ∨
      (cfg.fadeStart ≤ max top (top - maxAdj) ∧
        (zAdj < cfg.fadeDist ∨ (z = cfg.fadeEnd ∧ zAdj ≠ cfg.fadeDist)))

instance (fadeTarget maxAdj z : K) : Decidable (Recovered cfg fadeTarget maxAdj z) := by
  unfold Recovered
  infer_instance

/-- The fade region lies between its bounds, or it is disabled and nothing fades. -/
def FadeValid (fadeTarget : K) : Prop :=
  (0 < cfg.fadeDist ∧ cfg.fadeEnd = cfg.fadeStart + cfg.fadeDist) ∨
    (cfg.fadeDist ≤ 0 ∧ cfg.fadeEnd = cfg.fadeStart ∧ fadeTarget = 0)

variable [IsStrictOrderedRing K]

omit [Field K] [IsStrictOrderedRing K] in
theorem constrain_of_le {val minVal maxVal : K} (h : val ≤ minVal) (h' : minVal ≤ maxVal) :
    constrain val minVal maxVal = minVal := by
  rw [constrain, max_eq_left h, min_eq_right h']

omit [Field K] [IsStrictOrderedRing K] in
theorem constrain_of_mem {val minVal maxVal : K} (h : minVal ≤ val) (h' : val ≤ maxVal) :
    constrain val minVal maxVal = val := by
  rw [constrain, max_eq_right h, min_eq_right h']

theorem constrain_eq_one_iff {r : K} : constrain r 0 1 = 1 ↔ 1 ≤ r := by
  rw [constrain, min_eq_left_iff, le_max_iff, or_iff_right (not_le.mpr one_pos)]

theorem constrain_eq_zero_iff {r : K} : constrain r 0 1 = 0 ↔ r ≤ 0 := by
  constructor
  · intro h
    by_contra hr
    have hpos : 0 < constrain r 0 1 := lt_min one_pos (lt_max_of_lt_right (not_le.mp hr))
    exact hpos.ne' h
  · intro h
    exact constrain_of_le h zero_le_one

/-- The factor that is found for a height is right. -/
def Finds (fadeTarget maxAdj z : K) : Prop :=
  ∃ factor, findFactor cfg fadeTarget maxAdj (sentHeight cfg fadeTarget maxAdj z) = some factor ∧
    factor * (maxAdj - fadeTarget) = getZFactor cfg z * (maxAdj - fadeTarget)

omit [IsStrictOrderedRing K] in
theorem finds_iff (fadeTarget maxAdj z : K) : Finds cfg fadeTarget maxAdj z ↔
    let zAdj := maxAdj - fadeTarget
    let top := sentHeight cfg fadeTarget maxAdj z
    let sent := getZFactor cfg z * zAdj
    if cfg.fadeEnd ≤ min top (top - maxAdj) then sent = 0
    else if cfg.fadeStart ≤ max top (top - maxAdj) then
      cfg.fadeDist - zAdj ≠ 0 ∧
        constrain ((cfg.fadeEnd - z - sent) / (cfg.fadeDist - zAdj)) 0 1 * zAdj = sent
    else zAdj = sent := by
  have hnum : cfg.fadeEnd + fadeTarget - sentHeight cfg fadeTarget maxAdj z =
      cfg.fadeEnd - z - getZFactor cfg z * (maxAdj - fadeTarget) := by
    rw [sentHeight]
    ring
  unfold Finds findFactor
  dsimp only
  rw [hnum]
  split
  · simp [eq_comm]
  · split
    · split
      · rename_i hzero
        simp [hzero]
      · rename_i hne
        simp [hne]
    · simp only [Option.some.injEq, exists_eq_left', one_mul]

/-- Below the fade region. -/
theorem finds_below {fadeTarget maxAdj z : K} (hvalid : FadeValid cfg fadeTarget)
    (hz : z < cfg.fadeStart) :
    Finds cfg fadeTarget maxAdj z ↔
      z + maxAdj < cfg.fadeStart ∨ maxAdj - fadeTarget < cfg.fadeDist := by
  have hends : cfg.fadeStart ≤ cfg.fadeEnd := by
    rcases hvalid with ⟨hpos, hend⟩ | ⟨-, hend, -⟩ <;> linarith
  have hfactor : getZFactor cfg z = 1 := by
    rw [getZFactor, if_neg (by linarith), if_neg (by linarith)]
  have htop : sentHeight cfg fadeTarget maxAdj z = z + maxAdj := by
    rw [sentHeight, hfactor]
    ring
  have hbelow : z + maxAdj - maxAdj < cfg.fadeStart := by linarith
  rw [finds_iff]
  dsimp only
  rw [hfactor, htop, one_mul, if_neg (by rw [le_min_iff]; rintro ⟨-, h⟩; linarith)]
  split
  · rename_i hreached
    rw [le_max_iff, or_iff_left (not_le.mpr hbelow)] at hreached
    rw [or_iff_right (not_lt.mpr hreached)]
    have hmargin : z < cfg.fadeEnd - cfg.fadeDist := by
      rcases hvalid with ⟨hpos, hend⟩ | ⟨hdist, hend, -⟩ <;> linarith
    constructor
    · rintro ⟨hne, hfound⟩
      by_contra hge
      -- the factor that is found is less than one
      have hneg : cfg.fadeDist - (maxAdj - fadeTarget) < 0 :=
        lt_of_le_of_ne (by linarith) hne
      have hadj : maxAdj - fadeTarget ≠ 0 := by
        rcases hvalid with ⟨hpos, -⟩ | ⟨-, -, htarget⟩
        · intro hzero
          linarith
        · intro hzero
          linarith
      have hone := constrain_eq_one_iff.mp (mul_right_cancel₀ hadj (hfound.trans (one_mul _).symm))
      rw [one_le_div_of_neg hneg] at hone
      linarith
    · intro hlt
      have hpos : 0 < cfg.fadeDist - (maxAdj - fadeTarget) := by linarith
      refine ⟨hpos.ne', ?_⟩
      rw [constrain_eq_one_iff.mpr ((one_le_div hpos).mpr (by linarith)), one_mul]
  · rename_i hreached
    rw [le_max_iff, or_iff_left (not_le.mpr hbelow)] at hreached
    exact iff_of_true rfl (Or.inl (not_le.mp hreached))

/-- In the fade region. -/
theorem finds_inside {fadeTarget maxAdj z top : K} (hvalid : FadeValid cfg fadeTarget)
    (hstart : cfg.fadeStart ≤ z) (hend : z < cfg.fadeEnd)
    (htop : top = z + (cfg.fadeEnd - z) / cfg.fadeDist * (maxAdj - fadeTarget) + fadeTarget) :
    Finds cfg fadeTarget maxAdj z ↔ maxAdj - fadeTarget = 0 ∨
      (min top (top - maxAdj) < cfg.fadeEnd ∧ cfg.fadeStart ≤ max top (top - maxAdj) ∧
        maxAdj - fadeTarget ≠ cfg.fadeDist) := by
  obtain ⟨hdist, hends⟩ : 0 < cfg.fadeDist ∧ cfg.fadeEnd = cfg.fadeStart + cfg.fadeDist := by
    rcases hvalid with h | ⟨-, hsame, -⟩
    · exact h
    · linarith
  have hfactor : getZFactor cfg z = (cfg.fadeEnd - z) / cfg.fadeDist := by
    rw [getZFactor, if_neg (by linarith), if_pos hstart]
  have hpos : 0 < (cfg.fadeEnd - z) / cfg.fadeDist := div_pos (by linarith) hdist
  have hle : (cfg.fadeEnd - z) / cfg.fadeDist ≤ 1 := (div_le_one hdist).mpr (by linarith)
  have hsent : sentHeight cfg fadeTarget maxAdj z = top := by
    rw [sentHeight, hfactor, htop]
  rw [finds_iff]
  dsimp only
  rw [hsent]
  split
  · rename_i hover
    rw [hfactor, mul_eq_zero, or_iff_right hpos.ne', lt_iff_not_ge,
      iff_comm, or_iff_left (fun h => h.1 hover)]
  · rename_i hover
    rw [and_iff_right (not_le.mp hover)]
    split
    · rename_i hreached
      rw [and_iff_right hreached]
      constructor
      · rintro ⟨hne, -⟩
        exact Or.inr fun heq => hne (sub_eq_zero.mpr heq.symm)
      · intro h
        have hne : cfg.fadeDist - (maxAdj - fadeTarget) ≠ 0 := by
          rcases h with hzero | hne
          · rw [hzero, sub_zero]
            exact hdist.ne'
          · exact sub_ne_zero.mpr hne.symm
        have hratio : (cfg.fadeEnd - z - getZFactor cfg z * (maxAdj - fadeTarget)) /
            (cfg.fadeDist - (maxAdj - fadeTarget)) = getZFactor cfg z := by
          rw [hfactor, div_eq_iff hne]
          field_simp
        refine ⟨hne, ?_⟩
        rw [hratio, hfactor, constrain_of_mem hpos.le hle]
    · rename_i hreached
      rw [or_iff_left (fun h => hreached h.1)]
      constructor
      · intro hsame
        by_contra hadj
        -- only at the start of the region is the factor one
        have hone : getZFactor cfg z = 1 :=
          mul_right_cancel₀ hadj (hsame.symm.trans (one_mul _).symm)
        rw [hfactor, div_eq_one_iff_eq hdist.ne'] at hone
        apply hreached
        rw [htop, hone, div_self hdist.ne', le_max_iff]
        right
        linarith
      · intro hzero
        rw [hzero, mul_zero]

/-- Above the fade region. -/
theorem finds_above {fadeTarget maxAdj z : K} (hvalid : FadeValid cfg fadeTarget)
    (hend : cfg.fadeEnd ≤ z) :
    Finds cfg fadeTarget maxAdj z ↔ maxAdj - fadeTarget = 0 ∨
      cfg.fadeEnd ≤ min (z + fadeTarget) (z + fadeTarget - maxAdj) ∨
      (cfg.fadeStart ≤ max (z + fadeTarget) (z + fadeTarget - maxAdj) ∧
        (maxAdj - fadeTarget < cfg.fadeDist ∨
          (z = cfg.fadeEnd ∧ maxAdj - fadeTarget ≠ cfg.fadeDist))) := by
  have hfactor : getZFactor cfg z = 0 := by
    rw [getZFactor, if_pos hend]
  have htop : sentHeight cfg fadeTarget maxAdj z = z + fadeTarget := by
    rw [sentHeight, hfactor]
    ring
  rw [finds_iff]
  dsimp only
  rw [hfactor, htop, zero_mul, sub_zero]
  split
  · rename_i hover
    exact iff_of_true rfl (Or.inr (Or.inl hover))
  · rename_i hover
    rw [or_iff_right hover]
    split
    · rename_i hreached
      rw [and_iff_right hreached, mul_eq_zero, constrain_eq_zero_iff]
      have hzero (hadj : maxAdj - fadeTarget = 0) : cfg.fadeDist ≠ 0 := by
        intro hdist
        rcases hvalid with ⟨hpos, -⟩ | ⟨-, -, htarget⟩
        · exact hpos.ne' hdist
        · apply hover
          rw [le_min_iff]
          constructor <;> linarith
      constructor
      · rintro ⟨hne, hratio | hadj⟩
        · rcases lt_or_gt_of_ne hne with hneg | hpos
          · right
            right
            rw [div_nonpos_iff] at hratio
            refine ⟨?_, fun heq => hne (sub_eq_zero.mpr heq.symm)⟩
            rcases hratio with ⟨hnum, -⟩ | ⟨-, hden⟩ <;> linarith
          · exact Or.inr (Or.inl (by linarith))
        · exact Or.inl hadj
      · rintro (hadj | hlt | ⟨rfl, hne⟩)
        · refine ⟨?_, Or.inr hadj⟩
          rw [hadj, sub_zero]
          exact hzero hadj
        · have hpos : 0 < cfg.fadeDist - (maxAdj - fadeTarget) := by linarith
          exact ⟨hpos.ne', Or.inl (div_nonpos_of_nonpos_of_nonneg (by linarith) hpos.le)⟩
        · refine ⟨sub_ne_zero.mpr hne.symm, Or.inl ?_⟩
          rw [sub_self, zero_div]
    · rename_i hreached
      rw [or_iff_left (fun h => hreached h.1)]

theorem finds_iff_recovered {fadeTarget maxAdj z : K} (hvalid : FadeValid cfg fadeTarget) :
    Finds cfg fadeTarget maxAdj z ↔ Recovered cfg fadeTarget maxAdj z := by
  unfold Recovered
  dsimp only
  split
  · rename_i hz
    exact finds_below cfg hvalid hz
  · rename_i hz
    split
    · rename_i hend
      exact finds_inside cfg hvalid (not_lt.mp hz) hend rfl
    · rename_i hend
      exact finds_above cfg hvalid (not_lt.mp hend)

end Transform

/-! ## Runs -/

section Runs

variable (cfg : FadeConfig K) (splitter : SplitterConfig K) (sqrt : K → K)
  (getOffset : K × K → K × K → K × K → K → K → K) (deltaSplitOffset : K)

inductive BedMeshEvent (K : Type)
  | move (newpos : Position K)
  | setMesh (mesh : Option (Mesh K))
  | setMeshOffsets (x y : Option K)

/-- A step; a move is one that returns. -/
def Step (s : BedMesh K) (e : BedMeshEvent K) (t : BedMesh K) : Prop :=
  match e with
  | .move newpos => ∃ fuel, s.move cfg splitter sqrt getOffset deltaSplitOffset fuel newpos = some t
  | .setMesh mesh => t = (s.setMesh cfg mesh).1
  | .setMeshOffsets x y => t = s.setMeshOffsets cfg x y

/-- The splitter has the mesh and the fade target of the transform. -/
def Synced (s : BedMesh K) : Prop :=
  ∀ mesh, s.zMesh = some mesh → s.splitterMesh = some mesh ∧ s.fadeOffset = s.fadeTarget ∧
    (cfg.fadeEnd = fadeDisable → s.fadeTarget = 0)

theorem synced_setMesh (mesh : Option (Mesh K)) (s : BedMesh K) :
    Synced cfg (s.setMesh cfg mesh).1 := by
  unfold setMesh
  split
  · intro mesh hmesh
    cases hmesh
  · split
    · intro mesh hmesh
      cases hmesh
    · rename_i fadeTarget htarget
      intro other hother
      refine ⟨hother, rfl, fun hdisabled => ?_⟩
      unfold fadeTargetFor at htarget
      rw [if_neg (not_not.mpr hdisabled)] at htarget
      exact (Except.ok.inj htarget).symm

theorem Synced.step {s t : BedMesh K} {e : BedMeshEvent K} (h : Synced cfg s)
    (hstep : Step cfg splitter sqrt getOffset deltaSplitOffset s e t) : Synced cfg t := by
  cases e with
  | move newpos =>
    obtain ⟨fuel, hmove⟩ := hstep
    obtain ⟨moves, -, rfl⟩ := Option.map_eq_some_iff.mp hmove
    exact h
  | setMesh mesh =>
    rw [show t = _ from hstep]
    exact synced_setMesh cfg mesh s
  | setMeshOffsets x y =>
    rw [show t = _ from hstep]
    unfold setMeshOffsets
    split
    · exact h
    · rename_i mesh hmesh
      obtain ⟨hsplitter, hoffset, hdisabled⟩ := h mesh hmesh
      intro other hother
      refine ⟨?_, hoffset, hdisabled⟩
      rw [← hother]
      exact congrArg (Option.map fun mesh => mesh.setMeshOffsets x y) hsplitter

variable [IsStrictOrderedRing K]

omit [IsStrictOrderedRing K] in
/-- Where a move over a mesh sends the toolhead. -/
theorem toolheadPos_move (hend : ∀ p q d m, getOffset p q q d m = 0) {s t : BedMesh K}
    {mesh : Mesh K} {fuel : ℕ} {newpos : Position K} (hmesh : s.zMesh = some mesh)
    (hsynced : Synced cfg s)
    (hmove : s.move cfg splitter sqrt getOffset deltaSplitOffset fuel newpos = some t) :
    t.toolheadPos = newpos.raise (getZFactor cfg (newpos 2) *
      (mesh.calcZ (newpos 0) (newpos 1) - s.fadeTarget) + s.fadeTarget) := by
  obtain ⟨hsplitter, hoffset, -⟩ := hsynced mesh hmesh
  obtain ⟨moves, hmoves, rfl⟩ := Option.map_eq_some_iff.mp hmove
  unfold toolheadMoves at hmoves
  dsimp only at hmoves ⊢
  rw [hmesh, hsplitter, Option.isNone_some] at hmoves
  split at hmoves
  · rename_i hzero
    obtain rfl := Option.some.inj hmoves
    rw [hzero.resolve_left Bool.false_ne_true, zero_mul, zero_add]
    rfl
  · obtain ⟨points, htraverse, rfl⟩ := Option.map_eq_some_iff.mp hmoves
    have hlast := MoveSplitter.getLast?_traverse splitter mesh.calcZ s.fadeOffset rfl htraverse
    rw [List.getLastD_eq_getLast?, List.getLast?_map, hlast, Option.map_some, Option.getD_some,
      ← hoffset]
    -- at the end of the move the closed library adds nothing
    unfold splitMove
    dsimp only
    split
    · have hpoint : getOffset (s.lastPosition 0, s.lastPosition 1) (newpos 0, newpos 1)
          (newpos 0, newpos 1) deltaSplitOffset
          (sqrt ((newpos 0 - s.lastPosition 0) ^ 2 + (newpos 1 - s.lastPosition 1) ^ 2)) = 0 :=
        hend _ _ _ _
      refine Position.raise_eq_self_iff.mpr ?_
      rw [neg_eq_zero]
      exact mul_eq_zero_of_left hpoint _
    · rfl

/-- The position is found again after a move, if and only if the mesh and the fade region let it. -/
theorem getPosition_move_iff (hend : ∀ p q d m, getOffset p q q d m = 0) {s t : BedMesh K}
    (hsynced : Synced cfg s)
    (hvalid : ∀ fadeTarget, (cfg.fadeEnd = fadeDisable → fadeTarget = 0) →
      FadeValid cfg fadeTarget) {newpos : Position K}
    (hmove : Step cfg splitter sqrt getOffset deltaSplitOffset s (.move newpos) t) :
    t.getPosition cfg = some newpos ↔ ∀ mesh, s.zMesh = some mesh →
      Recovered cfg s.fadeTarget (mesh.calcZ (newpos 0) (newpos 1)) (newpos 2) := by
  obtain ⟨fuel, hmove⟩ := hmove
  obtain ⟨hmesh', htarget⟩ : t.zMesh = s.zMesh ∧ t.fadeTarget = s.fadeTarget := by
    obtain ⟨moves, -, rfl⟩ := Option.map_eq_some_iff.mp hmove
    exact ⟨rfl, rfl⟩
  cases hmesh : s.zMesh with
  | none =>
    apply iff_of_true
    · obtain ⟨moves, hmoves, rfl⟩ := Option.map_eq_some_iff.mp hmove
      unfold toolheadMoves at hmoves
      dsimp only at hmoves
      rw [hmesh, Option.isNone_none, if_pos (Or.inl rfl)] at hmoves
      obtain rfl := Option.some.inj hmoves
      unfold getPosition
      dsimp only
      rw [hmesh]
      dsimp only
      rw [List.getLastD_cons, List.getLastD_nil, Position.raise_raise, add_neg_cancel,
        Position.raise_eq_self_iff.mpr rfl]
    · intro mesh hnone
      cases hnone
  | some mesh =>
    have htoolhead := toolheadPos_move cfg splitter sqrt getOffset deltaSplitOffset hend hmesh
      hsynced hmove
    have hx : t.toolheadPos 0 = newpos 0 := by rw [htoolhead]; rfl
    have hy : t.toolheadPos 1 = newpos 1 := by rw [htoolhead]; rfl
    have hz : t.toolheadPos 2 =
        sentHeight cfg s.fadeTarget (mesh.calcZ (newpos 0) (newpos 1)) (newpos 2) := by
      rw [htoolhead, sentHeight, add_assoc]
      exact Function.update_self _ _ _
    have hfinds : t.getPosition cfg = some newpos ↔
        Finds cfg s.fadeTarget (mesh.calcZ (newpos 0) (newpos 1)) (newpos 2) := by
      unfold getPosition Finds
      rw [hmesh', hmesh]
      dsimp only
      rw [hx, hy, hz, htarget, Option.map_eq_some_iff]
      apply exists_congr
      intro factor
      rw [htoolhead, Position.raise_raise, Position.raise_eq_self_iff, add_neg_eq_zero,
        add_left_inj, eq_comm (a := factor * _)]
    rw [hfinds, finds_iff_recovered cfg
      (hvalid _ (hsynced mesh hmesh).2.2)]
    constructor
    · intro h other hother
      obtain rfl := Option.some.inj hother
      exact h
    · exact fun h => h mesh rfl

omit [IsStrictOrderedRing K] in
theorem fadeValid_init (fadeStart fadeEnd : K) (baseFadeTarget : Option K) {fadeTarget : K}
    (h : (FadeConfig.init fadeStart fadeEnd baseFadeTarget).fadeEnd = fadeDisable →
      fadeTarget = 0) :
    FadeValid (FadeConfig.init fadeStart fadeEnd baseFadeTarget) fadeTarget := by
  unfold FadeConfig.init at h ⊢
  split at h
  · rename_i hdist
    rw [if_pos hdist]
    exact Or.inr ⟨hdist, rfl, h rfl⟩
  · rename_i hdist
    rw [if_neg hdist]
    exact Or.inl ⟨not_le.mp hdist, (add_sub_cancel _ _).symm⟩

/-- After any run of moves, meshes and offsets, the position of a move is found again if and only
if the mesh there and the fade region let it. -/
theorem position_run_iff (fadeStart fadeEnd : K) (fadeTarget : Option K)
    (hend : ∀ p q d m, getOffset p q q d m = 0) {start : Position K}
    {events : List (BedMeshEvent K)} {s t : BedMesh K} {newpos : Position K}
    (hrun : Run (Step (.init fadeStart fadeEnd fadeTarget) splitter sqrt getOffset
      deltaSplitOffset) (init start) events s)
    (hmove : Step (.init fadeStart fadeEnd fadeTarget) splitter sqrt getOffset deltaSplitOffset s
      (.move newpos) t) :
    t.getPosition (.init fadeStart fadeEnd fadeTarget) = some newpos ↔
      ∀ mesh, s.zMesh = some mesh → Recovered (.init fadeStart fadeEnd fadeTarget) s.fadeTarget
        (mesh.calcZ (newpos 0) (newpos 1)) (newpos 2) := by
  have hinit : Synced (.init fadeStart fadeEnd fadeTarget) (init start) := by
    intro mesh hmesh
    cases hmesh
  have hsynced := hrun.invariant hinit fun s e t h hstep => h.step _ _ _ _ _ hstep
  exact getPosition_move_iff _ splitter sqrt getOffset deltaSplitOffset hend hsynced
    (fun target => fadeValid_init fadeStart fadeEnd fadeTarget) hmove

end Runs

/-! ## A sloping bed -/

/-- A bed that rises by one along the mesh. -/
def slopingMesh : Mesh ℚ where
  surface := MoveSplitter.slope
  meshOffsets := (0, 0)
  avgZ := 1 / 2
  minZ := 0
  maxZ := 1

theorem run_slopingMesh :
    Run (Step (.init 1 10 (some (1 / 2))) MoveSplitter.slopeConfig MoveSplitter.rootOfSquare
      (fun _ _ _ _ _ => 0) 0) (init (0 : Position ℚ)) [.setMesh slopingMesh]
      ((init 0).setMesh (.init 1 10 (some (1 / 2))) slopingMesh).1 := by
  apply Run.single
  unfold Step
  rfl

/-- In the middle of the fade region, the position is found again. -/
theorem position_run_iff_middle :
    ∃ t, Step (.init 1 10 (some (1 / 2))) MoveSplitter.slopeConfig MoveSplitter.rootOfSquare
        (fun _ _ _ _ _ => 0) 0 ((init 0).setMesh (.init 1 10 (some (1 / 2))) slopingMesh).1
        (.move ![0, 0, 5, 0]) t ∧
      t.getPosition (.init 1 10 (some (1 / 2))) = some ![0, 0, 5, 0] := by
  obtain ⟨t, ht⟩ := Option.isSome_iff_exists.mp (show
    (((init 0).setMesh (.init 1 10 (some (1 / 2))) slopingMesh).1.move (.init 1 10 (some (1 / 2)))
      MoveSplitter.slopeConfig MoveSplitter.rootOfSquare (fun _ _ _ _ _ => 0) 0 5
      ![0, 0, 5, 0]).isSome = true by decide +kernel)
  refine ⟨t, ⟨5, ht⟩, ?_⟩
  refine (position_run_iff MoveSplitter.slopeConfig MoveSplitter.rootOfSquare
    (fun _ _ _ _ _ => 0) 0 1 10 (some (1 / 2)) (fun _ _ _ _ => rfl)
    run_slopingMesh ⟨5, ht⟩).mpr ?_
  have hmesh : ((init 0).setMesh (.init 1 10 (some (1 / 2))) slopingMesh).1.zMesh =
      some slopingMesh := by
    unfold setMesh fadeTargetFor
    norm_num [FadeConfig.init, slopingMesh, resetLastPosition, fadeDisable]
  intro mesh h
  obtain rfl := Option.some.inj (hmesh.symm.trans h)
  decide +kernel

/-- The claim that a position is always found again is false: just below the end of the fade
region, where the bed is below the fade target. -/
theorem not_position_run :
    ¬ ∀ events s t newpos,
      Run (Step (.init 1 10 (some (1 / 2))) MoveSplitter.slopeConfig MoveSplitter.rootOfSquare
        (fun _ _ _ _ _ => 0) 0) (init (0 : Position ℚ)) events s →
      Step (.init 1 10 (some (1 / 2))) MoveSplitter.slopeConfig MoveSplitter.rootOfSquare
        (fun _ _ _ _ _ => 0) 0 s (.move newpos) t →
      t.getPosition (.init 1 10 (some (1 / 2))) = some newpos := by
  intro h
  obtain ⟨t, ht, hlost⟩ := (Option.any_eq_true _ _).mp (show
    (((init 0).setMesh (.init 1 10 (some (1 / 2))) slopingMesh).1.move (.init 1 10 (some (1 / 2)))
      MoveSplitter.slopeConfig MoveSplitter.rootOfSquare (fun _ _ _ _ _ => 0) 0 5
      ![0, 0, 96 / 10, 0]).any (fun t => decide
        (t.getPosition (.init 1 10 (some (1 / 2))) ≠ some ![0, 0, 96 / 10, 0])) = true by
    decide +kernel)
  exact of_decide_eq_true hlost
    (h _ _ t _ run_slopingMesh ⟨5, ht⟩)

end BedMesh

end FlsunT1.Klippy
