/-
  Klippy/VelocityLimits.lean --- the velocity limits of the toolhead (klippy/toolhead.py).

  Each value exists three times: the one in effect, the normal one and the limit of the
  work mode.  Beside them goes what was last requested; the values in effect are compared
  with the smaller of the request and the limit.
-/
import Mathlib.Algebra.Order.Ring.Rat
import Mathlib.Tactic.Linarith
import FlsunT1.Klippy.GcodeCommand
import FlsunT1.Library.Ensures
import FlsunT1.Library.Run

set_option autoImplicit false

namespace FlsunT1.Klippy

open Library

variable {K : Type} [Field K] [LinearOrder K]

/-! ## The state of the toolhead -/

/-- One value for each of the four. -/
structure VelocityValues (K : Type) where
  maxVelocity : K
  maxAccel : K
  accelToDecel : K
  squareCorner : K

/-- The fields of `class ToolHead` for its velocities and accelerations; `raised` says
that a command stopped with an exception that is not an error of its parameters. -/
structure ToolheadLimits (K : Type) where
  maxVelocity : K
  maxAccel : K
  maxAccelToDecel : K
  requestedAccelToDecel : K
  squareCornerVelocity : Option K
  junctionDeviation : K
  normal : VelocityValues K
  limit : VelocityValues K
  raised : Bool

namespace ToolheadLimits

/-- `_calc_junction_deviation`, which raises without a square corner velocity and at an
acceleration of 0; `sqrtTwo` is `math.sqrt(2.)`. -/
def calcJunctionDeviation (sqrtTwo : K) (t : ToolheadLimits K) : ToolheadLimits K :=
  match t.squareCornerVelocity with
  | none => { t with raised := true }
  | some scv =>
    if t.maxAccel = 0 then { t with raised := true }
    else
      { t with
        junctionDeviation := scv ^ 2 * (sqrtTwo - 1) / t.maxAccel
        maxAccelToDecel := min t.requestedAccelToDecel t.maxAccel }

/-- The limits of a toolhead that starts. -/
def startLimit : VelocityValues K := ⟨99999999, 99999999, 99999999, 99999999⟩

/-- The toolhead after `__init__`, from the values of its configuration. -/
def init (sqrtTwo : K) (config : VelocityValues K) : ToolheadLimits K :=
  let t := calcJunctionDeviation sqrtTwo
    { maxVelocity := config.maxVelocity, maxAccel := config.maxAccel
      maxAccelToDecel := config.accelToDecel, requestedAccelToDecel := config.accelToDecel
      squareCornerVelocity := some config.squareCorner, junctionDeviation := 0
      normal := config, limit := startLimit, raised := false }
  { t with normal := { config with accelToDecel := t.maxAccelToDecel } }

/-- `set_velocity_limitx` -/
def setVelocityLimitx (sqrtTwo : K) (l : VelocityValues K) (t : ToolheadLimits K) :
    ToolheadLimits K :=
  calcJunctionDeviation sqrtTwo
    { t with
      limit := l
      maxVelocity :=
        if l.maxVelocity < t.normal.maxVelocity then l.maxVelocity else t.normal.maxVelocity
      maxAccel := if l.maxAccel < t.normal.maxAccel then l.maxAccel else t.normal.maxAccel
      maxAccelToDecel :=
        if l.accelToDecel < t.normal.accelToDecel then l.accelToDecel else t.normal.accelToDecel
      squareCornerVelocity := some
        (if l.squareCorner < t.normal.squareCorner then l.squareCorner
          else t.normal.squareCorner) }

/-- The parameters of `SET_VELOCITY_LIMIT`. -/
structure VelocityRequest (K : Type) where
  maxVelocity : Option K
  maxAccel : Option K
  accelToDecel : Option K
  squareCorner : Option K

/-- What `cmd_SET_VELOCITY_LIMIT` reads of its command. -/
def readVelocityRequest (num : Numerals K) (gcmd : GCodeCommand) :
    Except String (VelocityRequest K) := do
  let maxVelocity ← gcmd.getFloat num "VELOCITY" .aboveZero
  let maxAccel ← gcmd.getFloat num "ACCEL" .aboveZero
  let squareCorner ← gcmd.getFloat num "SQUARE_CORNER_VELOCITY" .minZero
  let accelToDecel ← gcmd.getFloat num "ACCEL_TO_DECEL" .aboveZero
  return ⟨maxVelocity, maxAccel, accelToDecel, squareCorner⟩

/-- A value in effect after a request, which is taken up to the limit. -/
def takeRequest {α : Type} [LinearOrder α] (limit current : α) : Option α → α
  | none => current
  | some v => if v ≤ limit then v else current

/-- The same for the square corner velocity, which may be missing. -/
def takeCorner (limit : K) (current : Option K) : Option K → Option K
  | none => current
  | some v => if v ≤ limit then some v else current

/-- `cmd_SET_VELOCITY_LIMIT`, its parameters read. -/
def setVelocityLimit (sqrtTwo : K) (q : VelocityRequest K) (t : ToolheadLimits K) :
    ToolheadLimits K :=
  calcJunctionDeviation sqrtTwo
    { t with
      normal :=
        ⟨q.maxVelocity.getD t.normal.maxVelocity, q.maxAccel.getD t.normal.maxAccel,
          q.accelToDecel.getD t.normal.accelToDecel,
          q.squareCorner.getD t.normal.squareCorner⟩
      maxVelocity := takeRequest t.limit.maxVelocity t.maxVelocity q.maxVelocity
      maxAccel := takeRequest t.limit.maxAccel t.maxAccel q.maxAccel
      squareCornerVelocity :=
        takeCorner t.limit.squareCorner t.squareCornerVelocity q.squareCorner
      requestedAccelToDecel :=
        takeRequest t.limit.accelToDecel t.requestedAccelToDecel q.accelToDecel }

/-- What `cmd_M204` reads of its command: `S`, or the smaller of `P` and `T`. -/
def readM204 (num : Numerals K) (gcmd : GCodeCommand) : Except String (Option K) := do
  let s ← gcmd.getFloat num "S" .aboveZero
  match s with
  | some accel => return some accel
  | none =>
    let p ← gcmd.getFloat num "P" .aboveZero
    let t ← gcmd.getFloat num "T" .aboveZero
    return p.bind fun p => t.map fun t => min p t

/-- `cmd_M204`, its parameters read. -/
def setAccel (sqrtTwo : K) (t : ToolheadLimits K) : Option K → ToolheadLimits K
  | none => t
  | some accel => calcJunctionDeviation sqrtTwo { t with maxAccel := accel }

/-- `cmd_M205`, its parameter read. -/
def setSquareCorner (sqrtTwo : K) (t : ToolheadLimits K) (x : Option K) : ToolheadLimits K :=
  calcJunctionDeviation sqrtTwo { t with squareCornerVelocity := x }

end ToolheadLimits

/-! ## Commands and requests -/

/-- What changes the limits. -/
inductive LimitEvent (K : Type)
  | setVelocityLimitx (l : VelocityValues K)
  | setVelocityLimit (gcmd : GCodeCommand)
  | m204 (gcmd : GCodeCommand)
  | m205 (gcmd : GCodeCommand)

open ToolheadLimits

/-- One event; an error is that of a parameter. -/
def ToolheadLimits.step (sqrtTwo : K) (num : Numerals K) (t : ToolheadLimits K) :
    LimitEvent K → Except String (ToolheadLimits K)
  | .setVelocityLimitx l => .ok (t.setVelocityLimitx sqrtTwo l)
  | .setVelocityLimit gcmd => do
      let q ← readVelocityRequest num gcmd
      return t.setVelocityLimit sqrtTwo q
  | .m204 gcmd => do
      let accel ← readM204 num gcmd
      return t.setAccel sqrtTwo accel
  | .m205 gcmd => do
      let x ← gcmd.getFloat num "X" .aboveZero
      return t.setSquareCorner sqrtTwo x

/-- The values last requested, after an event. -/
def VelocityValues.next (num : Numerals K) (r : VelocityValues K) :
    LimitEvent K → VelocityValues K
  | .setVelocityLimitx _ => r
  | .setVelocityLimit gcmd =>
      match readVelocityRequest num gcmd with
      | .ok q =>
          ⟨q.maxVelocity.getD r.maxVelocity, q.maxAccel.getD r.maxAccel,
            q.accelToDecel.getD r.accelToDecel, q.squareCorner.getD r.squareCorner⟩
      | .error _ => r
  | .m204 gcmd =>
      match readM204 num gcmd with
      | .ok accel => { r with maxAccel := accel.getD r.maxAccel }
      | .error _ => r
  | .m205 gcmd =>
      match gcmd.getFloat num "X" .aboveZero with
      | .ok x => { r with squareCorner := x.getD r.squareCorner }
      | .error _ => r

/-- One event, beside the values last requested. -/
def LimitStep (sqrtTwo : K) (num : Numerals K) (s : ToolheadLimits K × VelocityValues K)
    (e : LimitEvent K) (t : ToolheadLimits K × VelocityValues K) : Prop :=
  s.1.step sqrtTwo num e = .ok t.1 ∧ t.2 = s.2.next num e

/-- Every value in effect is the smaller of the request and the limit. -/
structure LimitsHold (t : ToolheadLimits K) (r : VelocityValues K) : Prop where
  maxVelocity : t.maxVelocity = min r.maxVelocity t.limit.maxVelocity
  maxAccel : t.maxAccel = min r.maxAccel t.limit.maxAccel
  squareCorner : t.squareCornerVelocity = some (min r.squareCorner t.limit.squareCorner)
  accelToDecel :
    t.maxAccelToDecel = min (min r.accelToDecel t.limit.accelToDecel) t.maxAccel

/-! ## The condition -/

/-- A request for a value comes within its limit, or the last one was at the limit. -/
def RequestKeeps {α : Type} [LinearOrder α] (limit last : α) : Option α → Prop
  | none => True
  | some v => v ≤ limit ∨ limit ≤ last

/-- The stored request for `max_accel_to_decel`, capped by the acceleration `accel`, is
what the request `last` and the limit leave of it; without an acceleration it is not
computed again and the value `before` stays. -/
def DecelKeeps (last limit stored before accel : K) : Prop :=
  if accel = 0 then before = min (min last limit) accel
  else min stored accel = min (min last limit) accel

/-- The condition on an event, on its command, the state before it and the values last
requested. -/
def LimitCondition (num : Numerals K) (s : ToolheadLimits K × VelocityValues K) :
    LimitEvent K → Prop
  | .setVelocityLimitx l =>
      min s.1.normal.maxAccel l.maxAccel = min s.2.maxAccel l.maxAccel ∧
      min s.1.normal.squareCorner l.squareCorner = min s.2.squareCorner l.squareCorner ∧
      DecelKeeps s.2.accelToDecel l.accelToDecel s.1.requestedAccelToDecel
        (min s.1.normal.accelToDecel l.accelToDecel) (min s.2.maxAccel l.maxAccel)
  | .setVelocityLimit gcmd => ∀ q, readVelocityRequest num gcmd = .ok q →
      RequestKeeps s.1.limit.maxVelocity s.2.maxVelocity q.maxVelocity ∧
      RequestKeeps s.1.limit.maxAccel s.2.maxAccel q.maxAccel ∧
      RequestKeeps s.1.limit.squareCorner s.2.squareCorner q.squareCorner ∧
      DecelKeeps (q.accelToDecel.getD s.2.accelToDecel) s.1.limit.accelToDecel
        (takeRequest s.1.limit.accelToDecel s.1.requestedAccelToDecel q.accelToDecel)
        s.1.maxAccelToDecel (min (q.maxAccel.getD s.2.maxAccel) s.1.limit.maxAccel)
  | .m204 gcmd => ∀ accel, readM204 num gcmd = .ok (some accel) →
      accel ≤ s.1.limit.maxAccel ∧
      DecelKeeps s.2.accelToDecel s.1.limit.accelToDecel s.1.requestedAccelToDecel
        s.1.maxAccelToDecel accel
  | .m205 gcmd => ∀ x, gcmd.getFloat num "X" .aboveZero = .ok x →
      ∃ v, x = some v ∧ v ≤ s.1.limit.squareCorner

/-! ## The values in effect -/

/-- A request that is taken up to the limit leaves the smaller of the two if and only if
it comes within the limit, or the value was at the limit. -/
theorem takeRequest_eq_min_iff {α : Type} [LinearOrder α] {limit last : α} (q : Option α) :
    takeRequest limit (min last limit) q = min (q.getD last) limit ↔
      RequestKeeps limit last q := by
  cases q with
  | none => exact iff_of_true rfl trivial
  | some v =>
    rw [takeRequest, RequestKeeps, Option.getD_some]
    split
    · rename_i hle
      exact iff_of_true (min_eq_left hle).symm (.inl hle)
    · rename_i hgt
      rw [min_eq_right (not_le.mp hgt).le, min_eq_right_iff]
      exact ⟨.inr, fun h => h.resolve_left hgt⟩

theorem limitsHold_calc_iff (sqrtTwo : K) (t : ToolheadLimits K) (r : VelocityValues K) :
    LimitsHold (t.calcJunctionDeviation sqrtTwo) r ↔
      t.maxVelocity = min r.maxVelocity t.limit.maxVelocity ∧
      t.maxAccel = min r.maxAccel t.limit.maxAccel ∧
      t.squareCornerVelocity = some (min r.squareCorner t.limit.squareCorner) ∧
      DecelKeeps r.accelToDecel t.limit.accelToDecel t.requestedAccelToDecel
        t.maxAccelToDecel t.maxAccel := by
  rw [calcJunctionDeviation, DecelKeeps]
  split
  · rename_i hnone
    constructor
    · intro h
      cases hnone.symm.trans h.squareCorner
    · rintro ⟨-, -, h, -⟩
      cases hnone.symm.trans h
  · split
    · exact ⟨fun h => ⟨h.1, h.2, h.3, h.4⟩, fun h => ⟨h.1, h.2.1, h.2.2.1, h.2.2.2⟩⟩
    · exact ⟨fun h => ⟨h.1, h.2, h.3, h.4⟩, fun h => ⟨h.1, h.2.1, h.2.2.1, h.2.2.2⟩⟩

theorem calcJunctionDeviation_normal (sqrtTwo : K) (t : ToolheadLimits K) :
    (t.calcJunctionDeviation sqrtTwo).normal = t.normal := by
  rw [calcJunctionDeviation]
  split
  · rfl
  · split <;> rfl

/-- The invariant: the values hold, the normal velocity is the one last requested, and
`max_accel_to_decel` was computed at the end of the last command. -/
structure LimitsKept (s : ToolheadLimits K × VelocityValues K) : Prop where
  holds : LimitsHold s.1 s.2
  normalVelocity : s.1.normal.maxVelocity = s.2.maxVelocity
  computed : s.1.maxAccel = 0 ∨
    s.1.maxAccelToDecel = min s.1.requestedAccelToDecel s.1.maxAccel

theorem calcJunctionDeviation_computed {sqrtTwo : K} {t : ToolheadLimits K}
    {r : VelocityValues K} (h : LimitsHold (t.calcJunctionDeviation sqrtTwo) r) :
    (t.calcJunctionDeviation sqrtTwo).maxAccel = 0 ∨
      (t.calcJunctionDeviation sqrtTwo).maxAccelToDecel =
        min (t.calcJunctionDeviation sqrtTwo).requestedAccelToDecel
          (t.calcJunctionDeviation sqrtTwo).maxAccel := by
  obtain ⟨-, -, hscv, -⟩ := (limitsHold_calc_iff sqrtTwo t r).mp h
  rw [calcJunctionDeviation, hscv]
  dsimp only
  split
  · exact .inl ‹_›
  · exact .inr rfl

/-! ## One step -/

theorem setVelocityLimit_holds_iff {sqrtTwo : K} {t : ToolheadLimits K} {r : VelocityValues K}
    (hs : LimitsHold t r) (q : VelocityRequest K) :
    LimitsHold (t.setVelocityLimit sqrtTwo q)
        ⟨q.maxVelocity.getD r.maxVelocity, q.maxAccel.getD r.maxAccel,
          q.accelToDecel.getD r.accelToDecel, q.squareCorner.getD r.squareCorner⟩ ↔
      RequestKeeps t.limit.maxVelocity r.maxVelocity q.maxVelocity ∧
      RequestKeeps t.limit.maxAccel r.maxAccel q.maxAccel ∧
      RequestKeeps t.limit.squareCorner r.squareCorner q.squareCorner ∧
      DecelKeeps (q.accelToDecel.getD r.accelToDecel) t.limit.accelToDecel
        (takeRequest t.limit.accelToDecel t.requestedAccelToDecel q.accelToDecel)
        t.maxAccelToDecel (min (q.maxAccel.getD r.maxAccel) t.limit.maxAccel) := by
  have hcorner : takeCorner t.limit.squareCorner t.squareCornerVelocity q.squareCorner =
      some (takeRequest t.limit.squareCorner (min r.squareCorner t.limit.squareCorner)
        q.squareCorner) := by
    rw [hs.squareCorner]
    cases q.squareCorner with
    | none => rfl
    | some v =>
      rw [takeCorner, takeRequest]
      split <;> rfl
  rw [setVelocityLimit, limitsHold_calc_iff]
  dsimp only
  rw [hcorner, hs.maxVelocity, hs.maxAccel, Option.some_inj]
  refine and_congr (takeRequest_eq_min_iff _) ?_
  rw [← and_assoc, ← and_assoc, takeRequest_eq_min_iff q.squareCorner]
  constructor
  · rintro ⟨⟨haccel, hcorner⟩, hdecel⟩
    rw [haccel] at hdecel
    exact ⟨⟨(takeRequest_eq_min_iff _).mp haccel, hcorner⟩, hdecel⟩
  · rintro ⟨⟨haccel, hcorner⟩, hdecel⟩
    rw [← takeRequest_eq_min_iff] at haccel
    rw [haccel]
    exact ⟨⟨rfl, hcorner⟩, hdecel⟩

theorem setVelocityLimitx_holds_iff {sqrtTwo : K} {t : ToolheadLimits K} {r : VelocityValues K}
    (hnormal : t.normal.maxVelocity = r.maxVelocity) (l : VelocityValues K) :
    LimitsHold (t.setVelocityLimitx sqrtTwo l) r ↔
      min t.normal.maxAccel l.maxAccel = min r.maxAccel l.maxAccel ∧
      min t.normal.squareCorner l.squareCorner = min r.squareCorner l.squareCorner ∧
      DecelKeeps r.accelToDecel l.accelToDecel t.requestedAccelToDecel
        (min t.normal.accelToDecel l.accelToDecel) (min r.maxAccel l.maxAccel) := by
  have hmin (a b : K) : (if a < b then a else b) = min b a := by
    rw [min_comm, min_def_lt]
  rw [setVelocityLimitx, limitsHold_calc_iff]
  simp only [hmin, Option.some_inj, hnormal, true_and]
  constructor
  · rintro ⟨haccel, hcorner, hdecel⟩
    exact ⟨haccel, hcorner, haccel ▸ hdecel⟩
  · rintro ⟨haccel, hcorner, hdecel⟩
    exact ⟨haccel, hcorner, haccel.symm ▸ hdecel⟩

theorem setAccel_holds_iff {sqrtTwo : K} {t : ToolheadLimits K} {r : VelocityValues K}
    (hs : LimitsHold t r) (accel : K) :
    LimitsHold (t.setAccel sqrtTwo (some accel)) { r with maxAccel := accel } ↔
      accel ≤ t.limit.maxAccel ∧
      DecelKeeps r.accelToDecel t.limit.accelToDecel t.requestedAccelToDecel
        t.maxAccelToDecel accel := by
  rw [setAccel, limitsHold_calc_iff]
  constructor
  · rintro ⟨-, haccel, -, hdecel⟩
    exact ⟨min_eq_left_iff.mp haccel.symm, hdecel⟩
  · rintro ⟨haccel, hdecel⟩
    exact ⟨hs.maxVelocity, (min_eq_left haccel).symm, hs.squareCorner, hdecel⟩

theorem setSquareCorner_holds_iff {sqrtTwo : K} {t : ToolheadLimits K} {r : VelocityValues K}
    (hs : LimitsKept (t, r)) (x : Option K) :
    LimitsHold (t.setSquareCorner sqrtTwo x)
        { r with squareCorner := x.getD r.squareCorner } ↔
      ∃ v, x = some v ∧ v ≤ t.limit.squareCorner := by
  rw [setSquareCorner, limitsHold_calc_iff]
  constructor
  · rintro ⟨-, -, hx, -⟩
    have hx' : x = some (min (x.getD r.squareCorner) t.limit.squareCorner) := hx
    cases x with
    | none => cases hx'
    | some v => exact ⟨v, rfl, min_eq_left_iff.mp (Option.some_inj.mp hx').symm⟩
  · rintro ⟨v, rfl, hv⟩
    refine ⟨hs.holds.maxVelocity, hs.holds.maxAccel, ?_, ?_⟩
    · exact congrArg some (min_eq_left hv).symm
    · have hdecel := hs.holds.accelToDecel
      have hcomputed := hs.computed
      dsimp only at hdecel hcomputed ⊢
      rw [DecelKeeps]
      split
      · exact hdecel
      · rename_i hne
        rw [← hcomputed.resolve_left hne, hdecel]

/-- One event from a state with the invariant: the values hold after it if and only if its
condition holds, and then the invariant does. -/
theorem limitsHold_iff {sqrtTwo : K} {num : Numerals K} {s t : ToolheadLimits K × VelocityValues K}
    {e : LimitEvent K} (hs : LimitsKept s) (h : LimitStep sqrtTwo num s e t) :
    (LimitsHold t.1 t.2 ↔ LimitCondition num s e) ∧ (LimitsHold t.1 t.2 → LimitsKept t) := by
  obtain ⟨s, r⟩ := s
  obtain ⟨t, r'⟩ := t
  obtain ⟨hstep, hnext⟩ := h
  dsimp only at hstep hnext ⊢
  cases e with
  | setVelocityLimitx l =>
    cases hstep
    cases hnext
    refine ⟨setVelocityLimitx_holds_iff hs.normalVelocity l, fun hholds => ?_⟩
    refine ⟨hholds, ?_, calcJunctionDeviation_computed hholds⟩
    exact (congrArg _ (calcJunctionDeviation_normal sqrtTwo _)).trans hs.normalVelocity
  | setVelocityLimit gcmd =>
    obtain ⟨q, hread, hq⟩ := bind_eq_ok.mp hstep
    cases hq
    rw [VelocityValues.next, hread] at hnext
    cases hnext
    constructor
    · rw [setVelocityLimit_holds_iff hs.holds]
      constructor
      · intro hcond q' hread'
        cases hread.symm.trans hread'
        exact hcond
      · intro hcond
        exact hcond q hread
    · intro hholds
      refine ⟨hholds, ?_, calcJunctionDeviation_computed hholds⟩
      refine (congrArg _ (calcJunctionDeviation_normal sqrtTwo _)).trans ?_
      exact congrArg q.maxVelocity.getD hs.normalVelocity
  | m204 gcmd =>
    obtain ⟨accel, hread, haccel⟩ := bind_eq_ok.mp hstep
    cases haccel
    rw [VelocityValues.next, hread] at hnext
    cases hnext
    cases accel with
    | none =>
      refine ⟨iff_of_true hs.holds ?_, fun _ => hs⟩
      intro accel' hread'
      cases hread.symm.trans hread'
    | some accel =>
      constructor
      · refine (setAccel_holds_iff hs.holds accel).trans ?_
        constructor
        · intro hcond accel' hread'
          cases hread.symm.trans hread'
          exact hcond
        · intro hcond
          exact hcond accel hread
      · intro hholds
        refine ⟨hholds, ?_, calcJunctionDeviation_computed hholds⟩
        exact (congrArg _ (calcJunctionDeviation_normal sqrtTwo _)).trans hs.normalVelocity
  | m205 gcmd =>
    obtain ⟨x, hread, hx⟩ := bind_eq_ok.mp hstep
    cases hx
    rw [VelocityValues.next, hread] at hnext
    cases hnext
    constructor
    · refine (setSquareCorner_holds_iff hs x).trans ?_
      constructor
      · intro hcond x' hread'
        cases hread.symm.trans hread'
        exact hcond
      · intro hcond
        exact hcond x hread
    · intro hholds
      refine ⟨hholds, ?_, calcJunctionDeviation_computed hholds⟩
      exact (congrArg _ (calcJunctionDeviation_normal sqrtTwo _)).trans hs.normalVelocity

/-! ## Runs -/

/-- From a state with the invariant, every value in effect is the smaller of the request
and the limit after each event of a run if and only if each event meets its condition. -/
theorem limitsHold_run_iff (sqrtTwo : K) (num : Numerals K)
    {s : ToolheadLimits K × VelocityValues K} (hs : LimitsKept s) (es : List (LimitEvent K))
    (t : ToolheadLimits K × VelocityValues K) :
    Run (fun s e t => LimitStep sqrtTwo num s e t ∧ LimitsHold t.1 t.2) s es t ↔
      Run (fun s e t => LimitStep sqrtTwo num s e t ∧ LimitCondition num s e) s es t := by
  apply Run.restrict_iff hs
  · intro s e t hs hstep
    exact (limitsHold_iff hs hstep).1
  · intro s e t hs hstep hholds
    exact (limitsHold_iff hs hstep).2 hholds

theorem init_limitsKept (sqrtTwo : K) {config : VelocityValues K}
    (haccel : 0 < config.maxAccel) (hconfig : config.maxVelocity ≤ 99999999 ∧
      config.maxAccel ≤ 99999999 ∧ config.accelToDecel ≤ 99999999 ∧
      config.squareCorner ≤ 99999999) :
    LimitsKept (ToolheadLimits.init sqrtTwo config, config) := by
  obtain ⟨hv, ha, hd, hs⟩ := hconfig
  rw [ToolheadLimits.init, calcJunctionDeviation]
  dsimp only
  rw [if_neg haccel.ne']
  refine ⟨⟨(min_eq_left hv).symm, (min_eq_left ha).symm, ?_, ?_⟩, rfl, .inr rfl⟩
  · exact congrArg some (min_eq_left hs).symm
  · show min config.accelToDecel config.maxAccel =
      min (min config.accelToDecel 99999999) config.maxAccel
    rw [min_eq_left hd]

/-- The values of the printer as it is shipped. -/
def shippedConfig : VelocityValues ℚ := ⟨1000, 30000, 8000, 5⟩

theorem shipped_limitsKept :
    LimitsKept (ToolheadLimits.init (14 / 10) shippedConfig, shippedConfig) :=
  init_limitsKept _ (by decide +kernel) (by decide +kernel)

/-- `M204 S5000` -/
def setAccel5000 : LimitEvent ℚ := .m204 ⟨"M204 S5000", [("S", "5000")]⟩

theorem limitsHold_m204 :
    ∃ t, Run (fun s e t => LimitStep (14 / 10) (numerals [("5000", 5000)]) s e t ∧
        LimitsHold t.1 t.2)
      (ToolheadLimits.init (14 / 10) shippedConfig, shippedConfig) [setAccel5000] t := by
  let t := (ToolheadLimits.init (14 / 10) shippedConfig).setAccel (14 / 10) (some 5000)
  refine ⟨(t, { shippedConfig with maxAccel := 5000 }), ?_⟩
  apply (limitsHold_run_iff (14 / 10) _ shipped_limitsKept [setAccel5000] _).mpr
  refine .single ⟨⟨rfl, rfl⟩, ?_⟩
  intro accel hread
  cases hread
  refine ⟨by decide +kernel, ?_⟩
  rw [DecelKeeps]
  decide +kernel

/-- The limits of silent mode by default. -/
def silentLimit : VelocityValues ℚ := ⟨300, 6000, 2000, 5⟩

/-- In silent mode `max_accel_to_decel` is computed again without its limit. -/
theorem limitsHold_silent_lost :
    ¬ ∀ es t,
      Run (LimitStep (14 / 10) (numerals [])) (.init (14 / 10) shippedConfig, shippedConfig) es t →
      Run (fun s e t => LimitStep (14 / 10) (numerals []) s e t ∧ LimitsHold t.1 t.2)
        (.init (14 / 10) shippedConfig, shippedConfig) es t := by
  intro hall
  let t := (ToolheadLimits.init (14 / 10) shippedConfig).setVelocityLimitx (14 / 10) silentLimit
  have hstep : LimitStep (14 / 10) (numerals []) (.init (14 / 10) shippedConfig, shippedConfig)
      (.setVelocityLimitx silentLimit) (t, shippedConfig) := ⟨rfl, rfl⟩
  obtain ⟨u, -, -, hholds⟩ := (hall _ _ (.single hstep)).exists_last []
  exact absurd hholds.accelToDecel (by decide +kernel)

end FlsunT1.Klippy
