/-
  Klippy/DeltaEnvelope.lean --- where the moves that a delta accepts go through
  (klippy/kinematics/delta.py, check_move).

  A carriage has its limit a little above its endstop.  Below that height it keeps to its limit as
  long as the effector is at least an arm away from the point of the limit, so that a move is a
  segment that must not enter a ball.
-/
import FlsunT1.Klippy.DeltaSettings
import FlsunT1.Library.Segment

set_option autoImplicit false

namespace FlsunT1.Klippy

open Library

/-! ## The envelope -/

/-- A position within the radius and between the minimum of Z in force and `max_z`. -/
structure InBuildRange (cfg : DeltaConfig ℝ) (queuing : QueuingState) (p : Position ℝ) : Prop where
  xy2 : xy2 p ≤ cfg.maxXy2
  maxZ : p 2 ≤ cfg.maxZ
  minZ : cfg.minZ ≤ p 2
  normalMinZ : queuing ≠ .drip → cfg.normalMinZ ≤ p 2

/-- A position on the vertical through the home position, up to its height. -/
structure OnVertical (cfg : DeltaConfig ℝ) (queuing : QueuingState) (p : Position ℝ) : Prop where
  x : p 0 = cfg.homePosition 0
  y : p 1 = cfg.homePosition 1
  height : p 2 ≤ cfg.homePosition 2
  minZ : cfg.minZ ≤ p 2
  normalMinZ : queuing ≠ .drip → cfg.normalMinZ ≤ p 2

/-- The carriage of a tower can be where the position needs it. -/
def CarriageWithin (cfg : DeltaConfig ℝ) (i : Fin 3) (p : Position ℝ) : Prop :=
  ∃ h, DeltaKinematics.carriageHeight cfg Real.sqrt i p = .ok h ∧ h ≤ cfg.absEndstops i + 1 / 100

/-- A position inside the machine. -/
structure Inside (cfg : DeltaConfig ℝ) (queuing : QueuingState) (p : Position ℝ) : Prop where
  range : InBuildRange cfg queuing p ∨ OnVertical cfg queuing p
  carriages : ∀ i, CarriageWithin cfg i p

/-- A point of a move. -/
def moveAt (p q : Position ℝ) (t : ℝ) : Position ℝ := fun j => p j + t * (q j - p j)

/-- Every point of a move is inside. -/
def PathInside (cfg : DeltaConfig ℝ) (queuing : QueuingState) (p q : Position ℝ) : Prop :=
  ∀ t, 0 ≤ t → t ≤ 1 → Inside cfg queuing (moveAt p q t)

/-! ## Arms -/

/-- The square of the height of a carriage over the effector. -/
def reach2 (cfg : DeltaConfig ℝ) (i : Fin 3) (p : Position ℝ) : ℝ :=
  cfg.arm2 i - (p 0 - (cfg.towers i).1) ^ 2 - (p 1 - (cfg.towers i).2) ^ 2

/-- The highest point of a carriage. -/
noncomputable def carriageLimit (cfg : DeltaConfig ℝ) (i : Fin 3) : ℝ := cfg.absEndstops i + 1 / 100

/-- By how much the effector is more than an arm away from the limit of a carriage, squared. -/
noncomputable def clearance (cfg : DeltaConfig ℝ) (i : Fin 3) (p : Position ℝ) : ℝ :=
  (p 0 - (cfg.towers i).1) ^ 2 + (p 1 - (cfg.towers i).2) ^ 2 + (p 2 - carriageLimit cfg i) ^ 2 -
    cfg.arm2 i

/-- The part of a move that leads away from the limit of a carriage. -/
noncomputable def departure (cfg : DeltaConfig ℝ) (i : Fin 3) (p q : Position ℝ) : ℝ :=
  (p 0 - (cfg.towers i).1) * (q 0 - p 0) + (p 1 - (cfg.towers i).2) * (q 1 - p 1) +
    (p 2 - carriageLimit cfg i) * (q 2 - p 2)

/-- The closest point of a move to the limit of a carriage is not an end of the move, and it is less
than an arm away. -/
def PassesTooClose (cfg : DeltaConfig ℝ) (i : Fin 3) (p q : Position ℝ) : Prop :=
  DipsBelow (moveDSq p q) (departure cfg i p q) (clearance cfg i p)

/-- A move whose ends are both in range or both on the vertical, to an end that all arms reach, and
that passes no limit of a carriage too close. -/
structure Clear (cfg : DeltaConfig ℝ) (queuing : QueuingState) (p q : Position ℝ) : Prop where
  range : (InBuildRange cfg queuing p ∧ InBuildRange cfg queuing q) ∨
    (OnVertical cfg queuing p ∧ OnVertical cfg queuing q)
  reach : ∀ i, 0 ≤ reach2 cfg i q
  apart : ∀ i, ¬ PassesTooClose cfg i p q

section Path

variable {cfg : DeltaConfig ℝ} {queuing : QueuingState} {i : Fin 3} {p q : Position ℝ} {t : ℝ}

theorem carriageWithin_iff : CarriageWithin cfg i p ↔
    0 ≤ reach2 cfg i p ∧ p 2 ≤ carriageLimit cfg i ∧ 0 ≤ clearance cfg i p := by
  have hclear : clearance cfg i p = (carriageLimit cfg i - p 2) ^ 2 - reach2 cfg i p := by
    unfold clearance reach2
    ring
  have hsqrt : √(reach2 cfg i p) + p 2 ≤ carriageLimit cfg i ↔
      p 2 ≤ carriageLimit cfg i ∧ 0 ≤ clearance cfg i p := by
    rw [hclear, ← le_sub_iff_add_le, Real.sqrt_le_iff, sub_nonneg, sub_nonneg]
  unfold CarriageWithin DeltaKinematics.carriageHeight DeltaKinematics.mathSqrt
  change (∃ h, (if reach2 cfg i p < 0 then _ else _) >>= _ = _ ∧ _) ↔ _
  split
  · rename_i hneg
    constructor
    · rintro ⟨h, hh, -⟩
      cases hh
    · rintro ⟨hpos, -⟩
      exact absurd hpos (not_le.mpr hneg)
  · rename_i hpos
    rw [not_lt] at hpos
    rw [← hsqrt]
    constructor
    · rintro ⟨h, hh, hle⟩
      obtain rfl := Except.ok.inj hh
      exact ⟨hpos, hle⟩
    · rintro ⟨-, hle⟩
      exact ⟨_, rfl, hle⟩

theorem CarriageWithin.congr (h : CarriageWithin cfg i p) (h0 : q 0 = p 0) (h1 : q 1 = p 1)
    (h2 : q 2 = p 2) : CarriageWithin cfg i q := by
  rw [carriageWithin_iff] at h ⊢
  unfold reach2 clearance at *
  rwa [h0, h1, h2]

@[simp] theorem moveAt_zero : moveAt p q 0 = p := by
  unfold moveAt
  funext j
  ring

@[simp] theorem moveAt_one : moveAt p q 1 = q := by
  unfold moveAt
  funext j
  ring

theorem moveAt_flip : moveAt q p t = moveAt p q (1 - t) := by
  unfold moveAt
  funext j
  ring

theorem moveDSq_nonneg : 0 ≤ moveDSq p q := by
  unfold moveDSq
  positivity

theorem le_moveAt {j : Fin 4} {m : ℝ} (hp : m ≤ p j) (hq : m ≤ q j) (ht0 : 0 ≤ t) (ht1 : t ≤ 1) :
    m ≤ moveAt p q t j := by
  have h := quadAt_nonneg_of_concave (a := 0) (b := (q j - p j) / 2) (c := p j - m) le_rfl
    (by rw [quadAt_zero]; linarith) (by rw [quadAt_one]; linarith) ht0 ht1
  unfold quadAt at h
  unfold moveAt
  linarith

theorem moveAt_le {j : Fin 4} {m : ℝ} (hp : p j ≤ m) (hq : q j ≤ m) (ht0 : 0 ≤ t) (ht1 : t ≤ 1) :
    moveAt p q t j ≤ m := by
  have h := quadAt_nonneg_of_concave (a := 0) (b := (p j - q j) / 2) (c := m - p j) le_rfl
    (by rw [quadAt_zero]; linarith) (by rw [quadAt_one]; linarith) ht0 ht1
  unfold quadAt at h
  unfold moveAt
  linarith

theorem xy2_moveAt (m : ℝ) : m - xy2 (moveAt p q t) =
    quadAt (-((q 0 - p 0) ^ 2 + (q 1 - p 1) ^ 2))
      (-(p 0 * (q 0 - p 0) + p 1 * (q 1 - p 1))) (m - xy2 p) t := by
  unfold quadAt xy2 moveAt
  ring

theorem reach2_moveAt : reach2 cfg i (moveAt p q t) =
    quadAt (-((q 0 - p 0) ^ 2 + (q 1 - p 1) ^ 2))
      (-((p 0 - (cfg.towers i).1) * (q 0 - p 0) + (p 1 - (cfg.towers i).2) * (q 1 - p 1)))
      (reach2 cfg i p) t := by
  unfold quadAt reach2 moveAt
  ring

theorem clearance_moveAt : clearance cfg i (moveAt p q t) =
    quadAt (moveDSq p q) (departure cfg i p q) (clearance cfg i p) t := by
  unfold quadAt clearance moveDSq departure moveAt
  ring

/-! ## The range along a move -/

theorem InBuildRange.moveAt (hp : InBuildRange cfg queuing p) (hq : InBuildRange cfg queuing q)
    (ht0 : 0 ≤ t) (ht1 : t ≤ 1) : InBuildRange cfg queuing (moveAt p q t) where
  xy2 := by
    rw [← sub_nonneg, xy2_moveAt]
    refine quadAt_nonneg_of_concave (neg_nonpos.mpr (by positivity)) ?_ ?_ ht0 ht1
    · rw [← xy2_moveAt, moveAt_zero, sub_nonneg]
      exact hp.xy2
    · rw [← xy2_moveAt, moveAt_one, sub_nonneg]
      exact hq.xy2
  maxZ := moveAt_le hp.maxZ hq.maxZ ht0 ht1
  minZ := le_moveAt hp.minZ hq.minZ ht0 ht1
  normalMinZ := fun h => le_moveAt (hp.normalMinZ h) (hq.normalMinZ h) ht0 ht1

theorem OnVertical.moveAt (hp : OnVertical cfg queuing p) (hq : OnVertical cfg queuing q)
    (ht0 : 0 ≤ t) (ht1 : t ≤ 1) : OnVertical cfg queuing (moveAt p q t) where
  x := by
    unfold Klippy.moveAt
    rw [hp.x, hq.x, sub_self, mul_zero, add_zero]
  y := by
    unfold Klippy.moveAt
    rw [hp.y, hq.y, sub_self, mul_zero, add_zero]
  height := moveAt_le hp.height hq.height ht0 ht1
  minZ := le_moveAt hp.minZ hq.minZ ht0 ht1
  normalMinZ := fun h => le_moveAt (hp.normalMinZ h) (hq.normalMinZ h) ht0 ht1

theorem start_le_of_moveAt {j : Fin 4} {m : ℝ}
    (h : ∀ t, 0 < t → t ≤ 1 → moveAt p q t j ≤ m) : p j ≤ m := by
  have hlater : ∀ t, 0 < t → t ≤ 1 → 0 ≤ quadAt 0 ((p j - q j) / 2) (m - p j) t := by
    intro t h0 h1
    have hle := h t h0 h1
    unfold Klippy.moveAt at hle
    unfold quadAt
    linarith
  have hstart := quadAt_nonneg_start hlater
  rw [quadAt_zero] at hstart
  linarith

theorem le_start_of_moveAt {j : Fin 4} {m : ℝ}
    (h : ∀ t, 0 < t → t ≤ 1 → m ≤ moveAt p q t j) : m ≤ p j := by
  have hlater : ∀ t, 0 < t → t ≤ 1 → 0 ≤ quadAt 0 ((q j - p j) / 2) (p j - m) t := by
    intro t h0 h1
    have hle := h t h0 h1
    unfold Klippy.moveAt at hle
    unfold quadAt
    linarith
  have hstart := quadAt_nonneg_start hlater
  rw [quadAt_zero] at hstart
  linarith

theorem InBuildRange.start
    (h : ∀ t, 0 < t → t ≤ 1 → InBuildRange cfg queuing (Klippy.moveAt p q t)) :
    InBuildRange cfg queuing p where
  xy2 := by
    have hstart := quadAt_nonneg_start (fun t h0 h1 => by
      rw [← xy2_moveAt]
      exact sub_nonneg.mpr (h t h0 h1).xy2)
    rw [quadAt_zero, sub_nonneg] at hstart
    exact hstart
  maxZ := start_le_of_moveAt fun t h0 h1 => (h t h0 h1).maxZ
  minZ := le_start_of_moveAt fun t h0 h1 => (h t h0 h1).minZ
  normalMinZ := fun hq => le_start_of_moveAt fun t h0 h1 => (h t h0 h1).normalMinZ hq

theorem InBuildRange.start_of_vertical
    (h : ∀ t, 0 ≤ t → t ≤ 1 →
      InBuildRange cfg queuing (Klippy.moveAt p q t) ∨ OnVertical cfg queuing (Klippy.moveAt p q t))
    (hp : p 0 = cfg.homePosition 0 ∧ p 1 = cfg.homePosition 1)
    (hq : ¬(q 0 = cfg.homePosition 0 ∧ q 1 = cfg.homePosition 1)) : InBuildRange cfg queuing p := by
  refine InBuildRange.start (q := q) fun t h0 h1 => (h t h0.le h1).resolve_right fun hv => hq ?_
  have hx := hv.x
  have hy := hv.y
  unfold Klippy.moveAt at hx hy
  rw [← hp.1, add_eq_left, mul_eq_zero, or_iff_right h0.ne', sub_eq_zero] at hx
  rw [← hp.2, add_eq_left, mul_eq_zero, or_iff_right h0.ne', sub_eq_zero] at hy
  exact ⟨hx.trans hp.1, hy.trans hp.2⟩

theorem range_of_vertical (hp : InBuildRange cfg queuing p) (hq : OnVertical cfg queuing q)
    (hx : p 0 = cfg.homePosition 0) (hy : p 1 = cfg.homePosition 1) :
    InBuildRange cfg queuing q ∨ OnVertical cfg queuing p := by
  rcases le_or_gt (q 2) cfg.maxZ with hle | hgt
  · refine Or.inl ⟨?_, hle, hq.minZ, hq.normalMinZ⟩
    have hxy : Klippy.xy2 q = Klippy.xy2 p := by
      unfold Klippy.xy2
      rw [hq.x, hq.y, hx, hy]
    exact hxy.trans_le hp.xy2
  · exact Or.inr ⟨hx, hy, hp.maxZ.trans (hgt.le.trans hq.height), hp.minZ, hp.normalMinZ⟩

/-- A move stays in range, or on the vertical, exactly when its two ends do. -/
theorem range_iff : (∀ t, 0 ≤ t → t ≤ 1 →
      InBuildRange cfg queuing (moveAt p q t) ∨ OnVertical cfg queuing (moveAt p q t)) ↔
    (InBuildRange cfg queuing p ∧ InBuildRange cfg queuing q) ∨
      (OnVertical cfg queuing p ∧ OnVertical cfg queuing q) := by
  constructor
  · intro h
    have hp := h 0 le_rfl zero_le_one
    have hq := h 1 zero_le_one le_rfl
    rw [moveAt_zero] at hp
    rw [moveAt_one] at hq
    have hflip : ∀ t, 0 ≤ t → t ≤ 1 →
        InBuildRange cfg queuing (moveAt q p t) ∨ OnVertical cfg queuing (moveAt q p t) := by
      intro t h0 h1
      rw [moveAt_flip]
      exact h (1 - t) (by linarith) (by linarith)
    rcases hp with hp | hp
    · rcases hq with hq | hq
      · exact Or.inl ⟨hp, hq⟩
      · by_cases hv : p 0 = cfg.homePosition 0 ∧ p 1 = cfg.homePosition 1
        · rcases range_of_vertical hp hq hv.1 hv.2 with hq' | hp'
          · exact Or.inl ⟨hp, hq'⟩
          · exact Or.inr ⟨hp', hq⟩
        · exact Or.inl ⟨hp, InBuildRange.start_of_vertical hflip ⟨hq.x, hq.y⟩ hv⟩
    · rcases hq with hq | hq
      · by_cases hv : q 0 = cfg.homePosition 0 ∧ q 1 = cfg.homePosition 1
        · rcases range_of_vertical hq hp hv.1 hv.2 with hp' | hq'
          · exact Or.inl ⟨hp', hq⟩
          · exact Or.inr ⟨hp, hq'⟩
        · exact Or.inl ⟨InBuildRange.start_of_vertical h ⟨hp.x, hp.y⟩ hv, hq⟩
      · exact Or.inr ⟨hp, hq⟩
  · rintro (⟨hp, hq⟩ | ⟨hp, hq⟩) t h0 h1
    · exact Or.inl (hp.moveAt hq h0 h1)
    · exact Or.inr (hp.moveAt hq h0 h1)

/-! ## The carriages along a move -/

/-- A carriage stays within its limit between two positions where it is, unless the move passes too
close. -/
theorem carriageWithin_moveAt (hp : CarriageWithin cfg i p) (hq : CarriageWithin cfg i q)
    (hapart : ¬ PassesTooClose cfg i p q) (ht0 : 0 ≤ t) (ht1 : t ≤ 1) :
    CarriageWithin cfg i (moveAt p q t) := by
  obtain ⟨hreach, hlimit, hclear⟩ := carriageWithin_iff.mp hp
  obtain ⟨hreach', hlimit', hclear'⟩ := carriageWithin_iff.mp hq
  refine carriageWithin_iff.mpr ⟨?_, moveAt_le hlimit hlimit' ht0 ht1, ?_⟩
  · rw [reach2_moveAt]
    refine quadAt_nonneg_of_concave (neg_nonpos.mpr (by positivity)) ?_ ?_ ht0 ht1
    · rw [← reach2_moveAt, moveAt_zero]
      exact hreach
    · rw [← reach2_moveAt, moveAt_one]
      exact hreach'
  · rw [clearance_moveAt]
    refine quadAt_nonneg_of_convex moveDSq_nonneg ?_ ?_ hapart ht0 ht1
    · rw [← clearance_moveAt, moveAt_zero]
      exact hclear
    · rw [← clearance_moveAt, moveAt_one]
      exact hclear'

theorem not_passesTooClose (h : ∀ t, 0 ≤ t → t ≤ 1 → CarriageWithin cfg i (moveAt p q t)) :
    ¬ PassesTooClose cfg i p q := by
  intro hclose
  obtain ⟨t, h0, h1, hneg⟩ := exists_quadAt_neg hclose
  rw [← clearance_moveAt] at hneg
  exact absurd (carriageWithin_iff.mp (h t h0 h1)).2.2 (not_le.mpr hneg)

/-- A move between two ends at which the carriages are within their limits is inside exactly when it
is clear. -/
theorem pathInside_iff (hp : ∀ i, CarriageWithin cfg i p)
    (hq : ∀ i, 0 ≤ reach2 cfg i q → CarriageWithin cfg i q) :
    PathInside cfg queuing p q ↔ Clear cfg queuing p q := by
  constructor
  · intro h
    refine ⟨range_iff.mp fun t h0 h1 => (h t h0 h1).range, ?_, ?_⟩
    · intro i
      have hend := (h 1 zero_le_one le_rfl).carriages i
      rw [moveAt_one] at hend
      exact (carriageWithin_iff.mp hend).1
    · exact fun i => not_passesTooClose fun t h0 h1 => (h t h0 h1).carriages i
  · intro h t h0 h1
    refine ⟨range_iff.mpr h.range t h0 h1, ?_⟩
    exact fun i => carriageWithin_moveAt (hp i) (hq i (h.reach i)) (h.apart i) h0 h1

end Path

/-! ## What a check establishes of the end -/

section Check

variable {cfg : DeltaConfig ℝ} {queuing : QueuingState} {i : Fin 3} {p q : Position ℝ}
  {kin kin' : DeltaKinematics ℝ} {move move' : Move ℝ} {arm : Fin 3 → ℝ}

/-- Up to `limit_z` a carriage is within its limit wherever its arm reaches. -/
theorem carriageWithin_of_limitZ (harm : cfg.HasArms arm) (hz : q 2 ≤ cfg.limitZ)
    (hreach : 0 ≤ reach2 cfg i q) : CarriageWithin cfg i q := by
  have hlow := harm.limitZ i
  have hpos := (harm.pos i).le
  have hbelow : arm i ≤ carriageLimit cfg i - q 2 := by
    unfold carriageLimit
    linarith
  have hsq : cfg.arm2 i ≤ (carriageLimit cfg i - q 2) ^ 2 := by
    rw [harm.arm2 i]
    exact pow_le_pow_left₀ hpos hbelow 2
  refine carriageWithin_iff.mpr ⟨hreach, by linarith, ?_⟩
  have hx := sq_nonneg (q 0 - (cfg.towers i).1)
  have hy := sq_nonneg (q 1 - (cfg.towers i).2)
  have hflip : (q 2 - carriageLimit cfg i) ^ 2 = (carriageLimit cfg i - q 2) ^ 2 := by ring
  unfold clearance
  rw [hflip]
  linarith

/-- Above `limit_z` the carriages are checked. -/
theorem carriageWithin_of_checkHeight {limitXy2 limitXy2' : ℝ}
    (h : DeltaKinematics.checkHeight cfg Real.sqrt q limitXy2 = .ok limitXy2')
    (hz : cfg.limitZ < q 2) : CarriageWithin cfg i q := by
  unfold DeltaKinematics.checkHeight at h
  rw [if_pos hz] at h
  obtain ⟨ha, hheightA, h⟩ := bind_eq_ok.mp h
  obtain ⟨hb, hheightB, h⟩ := bind_eq_ok.mp h
  obtain ⟨hc, hheightC, h⟩ := bind_eq_ok.mp h
  split at h
  · cases h
  · rename_i hin
    simp only [not_or, not_lt] at hin
    fin_cases i
    · exact ⟨ha, hheightA, hin.1⟩
    · exact ⟨hb, hheightB, hin.2.1⟩
    · exact ⟨hc, hheightC, hin.2.2⟩

/-- A cache that is set tells that the move does not end above `limit_z`. -/
def LowCache (cfg : DeltaConfig ℝ) (s : DeltaToolhead ℝ) : Prop :=
  0 ≤ s.kin.limitXy2 → s.commandedPos 2 ≤ cfg.limitZ

/-- At the end of a move that is accepted, each carriage is within its limit where its arm
reaches. -/
theorem carriageWithin_of_checkMove (harm : cfg.HasArms arm)
    (hlow : 0 ≤ kin.limitXy2 → move.startPos 2 ≤ cfg.limitZ)
    (haxes : move.axesD 2 = move.endPos 2 - move.startPos 2)
    (h : kin.checkMove cfg Real.sqrt queuing move = .ok (kin', move'))
    (hreach : 0 ≤ reach2 cfg i move.endPos) : CarriageWithin cfg i move.endPos := by
  unfold DeltaKinematics.checkMove at h
  split at h
  · rename_i hfast
    have hz : move.endPos 2 = move.startPos 2 := sub_eq_zero.mp (haxes.symm.trans hfast.2)
    refine carriageWithin_of_limitZ harm ?_ hreach
    rw [hz]
    exact hlow ((DeltaToolhead.xy2_nonneg _).trans hfast.1)
  · rcases le_or_gt (move.endPos 2) cfg.limitZ with hle | hgt
    · exact carriageWithin_of_limitZ harm hle hreach
    · unfold DeltaKinematics.checkSlow at h
      split at h
      · cases h
      · obtain ⟨_, -, h⟩ := bind_eq_ok.mp h
        obtain ⟨_, hheight, -⟩ := bind_eq_ok.mp h
        exact carriageWithin_of_checkHeight hheight hgt

/-- Every move to a position inside is accepted, once the machine is homed. -/
theorem accepts_of_inside (hhome : kin.needHome = false) (hend : Inside cfg queuing move.endPos) :
    ∃ kin' move', kin.checkMove cfg Real.sqrt queuing move = .ok (kin', move') ∧
      kin'.needHome = false := by
  have hrange : ∃ l, DeltaKinematics.checkRange cfg queuing move.endPos = .ok l := by
    unfold DeltaKinematics.checkRange
    split
    · rename_i hout
      refine ⟨-1, if_neg ?_⟩
      rcases hend.range with hin | hin
      · exfalso
        rcases hout with h | h | h | h
        · exact absurd hin.xy2 (not_le.mpr h)
        · exact absurd hin.maxZ (not_le.mpr h)
        · exact absurd hin.minZ (not_le.mpr h)
        · exact absurd (hin.normalMinZ h.1) (not_le.mpr h.2)
      · rintro (h | h | h | h)
        · exact h (Prod.ext hin.x hin.y)
        · exact absurd hin.minZ (not_le.mpr h)
        · exact absurd (hin.normalMinZ h.1) (not_le.mpr h.2)
        · exact absurd hin.height (not_le.mpr h)
    · exact ⟨_, rfl⟩
  have hheight : ∀ l, ∃ l', DeltaKinematics.checkHeight cfg Real.sqrt move.endPos l = .ok l' := by
    intro l
    unfold DeltaKinematics.checkHeight
    split
    · obtain ⟨ha, hA, hleA⟩ := hend.carriages 0
      obtain ⟨hb, hB, hleB⟩ := hend.carriages 1
      obtain ⟨hc, hC, hleC⟩ := hend.carriages 2
      refine ⟨-1, bind_eq_ok.mpr ⟨ha, hA, bind_eq_ok.mpr ⟨hb, hB, bind_eq_ok.mpr ⟨hc, hC, ?_⟩⟩⟩⟩
      refine if_neg ?_
      rintro (h | h | h)
      · exact absurd hleA (not_le.mpr h)
      · exact absurd hleB (not_le.mpr h)
      · exact absurd hleC (not_le.mpr h)
    · exact ⟨l, rfl⟩
  obtain ⟨l, hl⟩ := hrange
  obtain ⟨l', hl'⟩ := hheight l
  unfold DeltaKinematics.checkMove
  split
  · exact ⟨kin, move, rfl, hhome⟩
  · unfold DeltaKinematics.checkSlow
    rw [if_neg (by rw [hhome]; exact Bool.false_ne_true)]
    exact ⟨_, _, bind_eq_ok.mpr ⟨l, hl, bind_eq_ok.mpr ⟨l', hl', rfl⟩⟩, hhome⟩

theorem limitZ_of_checkMove (hlow : 0 ≤ kin.limitXy2 → move.startPos 2 ≤ cfg.limitZ)
    (haxes : move.axesD 2 = move.endPos 2 - move.startPos 2)
    (h : kin.checkMove cfg Real.sqrt queuing move = .ok (kin', move'))
    (hpos : 0 ≤ kin'.limitXy2) :
    move.startPos 2 ≤ cfg.limitZ ∧ move.endPos 2 ≤ cfg.limitZ := by
  unfold DeltaKinematics.checkMove at h
  split at h
  · rename_i hfast
    obtain ⟨rfl, -⟩ := Prod.mk.inj (Except.ok.inj h)
    have hz : move.endPos 2 = move.startPos 2 := sub_eq_zero.mp (haxes.symm.trans hfast.2)
    rw [hz]
    exact ⟨hlow hpos, hlow hpos⟩
  · have hcached := DeltaKinematics.cached_of_checkSlow h hpos
    have hz : move.endPos 2 = move.startPos 2 := sub_eq_zero.mp (haxes.symm.trans hcached.axesD)
    exact ⟨hz ▸ hcached.limitZ, hcached.limitZ⟩

end Check

/-! ## Runs -/

namespace DeltaToolhead

/-- What a move is built from, and what `check_move` says of it. -/
def Accepts (cfg : DeltaConfig ℝ) (s : DeltaToolhead ℝ) (queuing : QueuingState) (m : Move ℝ) :
    Prop :=
  ∃ r, s.kin.checkMove cfg Real.sqrt queuing m = .ok r

/-- The property of each event that makes a move which is checked. -/
def ForMove (s : DeltaToolhead ℝ) (P : QueuingState → Move ℝ → Prop) : KinEvent ℝ → Prop
  | .move newpos speed queuing limits _ =>
    let m := Move.init Real.sqrt limits s.commandedPos newpos speed
    m.isKinematicMove = true → P queuing m
  | _ => True

/-- The toolhead moves, and each move that is checked is accepted; no position is set. -/
def Moves (cfg : DeltaConfig ℝ) (s : DeltaToolhead ℝ) (e : KinEvent ℝ) (t : DeltaToolhead ℝ) :
    Prop :=
  (∀ newpos homingAxes, e ≠ .setPosition newpos homingAxes) ∧ s.ForMove (s.Accepts cfg) e ∧
    t = s.apply cfg Real.sqrt e

/-- Every point of the move is inside the machine. -/
def StaysInside (cfg : DeltaConfig ℝ) (s : DeltaToolhead ℝ) (e : KinEvent ℝ) : Prop :=
  s.ForMove (fun queuing m => PathInside cfg queuing m.startPos m.endPos) e

/-- The move is clear. -/
def StaysClear (cfg : DeltaConfig ℝ) (s : DeltaToolhead ℝ) (e : KinEvent ℝ) : Prop :=
  s.ForMove (fun queuing m => Clear cfg queuing m.startPos m.endPos) e

/-- What is kept by moves that stay inside. -/
structure Housed (cfg : DeltaConfig ℝ) (s : DeltaToolhead ℝ) : Prop where
  low : LowCache cfg s
  carriages : ∀ i, CarriageWithin cfg i s.commandedPos

variable {cfg : DeltaConfig ℝ} {s t : DeltaToolhead ℝ} {es : List (KinEvent ℝ)}

theorem lowCache_of_reset (h : t.kin.limitXy2 = -1) : LowCache cfg t := by
  intro hpos
  rw [h] at hpos
  exact absurd hpos (not_le_of_gt neg_one_lt_zero)

theorem axesD_ends {limits : ToolheadLimits ℝ} {p q : Position ℝ} {speed : ℝ}
    (hkm : (Move.init Real.sqrt limits p q speed).isKinematicMove = true) :
    (Move.init Real.sqrt limits p q speed).axesD 2 =
      (Move.init Real.sqrt limits p q speed).endPos 2 -
        (Move.init Real.sqrt limits p q speed).startPos 2 := by
  rw [Move.axesD_init hkm, Move.endPos_init hkm, Move.startPos_init]

theorem lowCache_step {e : KinEvent ℝ} (h : LowCache cfg s) (ht : t = s.apply cfg Real.sqrt e) :
    LowCache cfg t := by
  cases e with
  | move newpos speed queuing limits extruderAccepts =>
    obtain rfl | ⟨hkin, e, hpos⟩ | ⟨hkm, checked, hcheck, hpos⟩ := move_cases _ _ _ _ _ _ ht
    · exact h
    · intro hlimit
      rw [hkin] at hlimit
      rw [hpos]
      exact h hlimit
    · have hstart : (Move.init Real.sqrt limits s.commandedPos newpos speed).startPos =
          s.commandedPos := Move.startPos_init
      have hend := Move.endPos_init hkm
      have haxes := axesD_ends hkm
      intro hlimit
      obtain ⟨h1, h2⟩ := limitZ_of_checkMove (hstart.symm ▸ h) haxes hcheck hlimit
      rw [hstart] at h1
      rw [hend] at h2
      obtain hpos | hpos := hpos
      · rw [hpos]
        exact h1
      · rw [hpos]
        exact h2
  | setPosition newpos homingAxes =>
    rw [ht]
    exact lowCache_of_reset rfl
  | setExtruder extrudePos =>
    rw [ht]
    exact h
  | motorOff =>
    rw [ht]
    exact lowCache_of_reset rfl
  | setMaxZVelocity v =>
    rw [ht]
    exact h

theorem lowCache_of_run {maxZVelocity : ℝ}
    (h : Run (fun s e t => t = s.apply cfg Real.sqrt e) (init maxZVelocity) es s) :
    LowCache cfg s :=
  h.invariant (P := LowCache cfg) (lowCache_of_reset rfl) fun _ _ _ hlow hstep =>
    lowCache_step hlow hstep

theorem staysInside_iff {arm : Fin 3 → ℝ} {e : KinEvent ℝ} (harm : cfg.HasArms arm)
    (h : s.Housed cfg) (hmoves : s.Moves cfg e t) :
    s.StaysInside cfg e ↔ s.StaysClear cfg e := by
  obtain ⟨-, haccepts, -⟩ := hmoves
  cases e with
  | move newpos speed queuing limits extruderAccepts =>
    refine forall_congr' fun hkm => ?_
    obtain ⟨⟨kin', m'⟩, hcheck⟩ := haccepts hkm
    have hstart : (Move.init Real.sqrt limits s.commandedPos newpos speed).startPos =
        s.commandedPos := Move.startPos_init
    have haxes := axesD_ends hkm
    refine pathInside_iff ?_ ?_
    · rw [hstart]
      exact h.carriages
    · intro i hreach
      exact carriageWithin_of_checkMove harm (hstart.symm ▸ h.low) haxes hcheck hreach
  | setPosition | setExtruder | motorOff | setMaxZVelocity => exact Iff.rfl

/-- A move that stays inside ends inside. -/
theorem Housed.step {e : KinEvent ℝ} (h : s.Housed cfg) (hmoves : s.Moves cfg e t)
    (hinside : s.StaysInside cfg e) : t.Housed cfg := by
  obtain ⟨hset, -, ht⟩ := hmoves
  refine ⟨lowCache_step h.low ht, ?_⟩
  cases e with
  | move newpos speed queuing limits extruderAccepts =>
    obtain rfl | ⟨-, e, hpos⟩ | ⟨hkm, checked, -, hpos⟩ := move_cases _ _ _ _ _ _ ht
    · exact h.carriages
    · intro i
      rw [hpos]
      exact (h.carriages i).congr rfl rfl rfl
    · obtain hpos | hpos := hpos
      · rw [hpos]
        exact h.carriages
      · have hend := (hinside hkm 1 zero_le_one le_rfl).carriages
        rw [moveAt_one, Move.endPos_init hkm] at hend
        rw [hpos]
        exact hend
  | setPosition newpos homingAxes => exact absurd rfl (hset newpos homingAxes)
  | setExtruder extrudePos =>
    intro i
    rw [ht]
    exact (h.carriages i).congr rfl rfl rfl
  | motorOff =>
    rw [ht]
    exact h.carriages
  | setMaxZVelocity v =>
    rw [ht]
    exact h.carriages

/-- From a position with every carriage within its limit, in any state of the cache that can be
reached: accepted moves stay inside the machine, at each of their points, exactly when each of them
is clear. -/
theorem moves_stayInside_iff {settings : DeltaSettings} {maxZVelocity : ℝ}
    (hcfg : settings.init = .ok (cfg, maxZVelocity)) {es₀ : List (KinEvent ℝ)}
    {s₀ : DeltaToolhead ℝ}
    (hreach : Run (fun s e t => t = s.apply cfg Real.sqrt e) (init maxZVelocity) es₀ s₀)
    (hstart : ∀ i, CarriageWithin cfg i s₀.commandedPos) :
    Run (fun s e t => Moves cfg s e t ∧ s.StaysInside cfg e) s₀ es s ↔
      Run (fun s e t => Moves cfg s e t ∧ s.StaysClear cfg e) s₀ es s := by
  obtain ⟨arm, harm⟩ := settings.arms_of_init hcfg
  refine Run.restrict_iff (P := Housed cfg) (Q := fun s e _ => s.StaysInside cfg e)
    ⟨lowCache_of_run hreach, hstart⟩ ?_ ?_
  · exact fun s e t hhoused hmoves => staysInside_iff harm hhoused hmoves
  · exact fun s e t hhoused hmoves hinside => hhoused.step hmoves hinside

theorem not_short_of_long {p q : Position ℝ} (hlong : 1 ≤ moveDSq p q) :
    ¬ √(moveDSq p q) < 1 / 10 ^ 9 := by
  have hd : 1 ≤ √(moveDSq p q) := Real.le_sqrt_of_sq_le (by linarith)
  exact not_lt.mpr (le_trans (by norm_num) hd)

theorem isKinematicMove_of_long (limits : ToolheadLimits ℝ) {p q : Position ℝ} (speed : ℝ)
    (hlong : 1 ≤ moveDSq p q) : (Move.init Real.sqrt limits p q speed).isKinematicMove = true := by
  unfold Move.init
  dsimp only
  rw [if_neg (not_short_of_long hlong)]

/-- A homed toolhead goes to every position inside that is not next to its own. -/
theorem exists_moves_to {newpos : Position ℝ} (speed : ℝ) {queuing : QueuingState}
    (limits : ToolheadLimits ℝ) (hhome : s.kin.needHome = false)
    (hend : Inside cfg queuing newpos) (hlong : 1 ≤ moveDSq s.commandedPos newpos) :
    ∃ t, Moves cfg s (.move newpos speed queuing limits fun _ => true) t ∧
      t.commandedPos = newpos ∧ t.kin.needHome = false := by
  set m := Move.init Real.sqrt limits s.commandedPos newpos speed with hm
  have hkm : m.isKinematicMove = true := isKinematicMove_of_long limits speed hlong
  have hmoveD : m.moveD ≠ 0 := by
    rw [hm]
    unfold Move.init
    dsimp only
    rw [if_neg (not_short_of_long hlong)]
    exact (Real.sqrt_pos.mpr (by linarith)).ne'
  have hendPos : m.endPos = newpos := Move.endPos_init hkm
  obtain ⟨kin, m', hcheck, hhome'⟩ := accepts_of_inside hhome (hendPos.symm ▸ hend)
  refine ⟨⟨newpos, kin⟩, ⟨?_, fun _ => ⟨_, hcheck⟩, ?_⟩, rfl, hhome'⟩
  · intro _ _ h
    cases h
  · unfold apply DeltaToolhead.move
    dsimp only
    rw [← hm, if_neg hmoveD, hkm, if_pos rfl, hcheck, hendPos]
    simp

theorem inBuildRange_tall {x y z : ℝ} (hxy : x ^ 2 + y ^ 2 ≤ 22500) (hz0 : 0 ≤ z) (hz1 : z ≤ 1000) :
    InBuildRange tallConfig .main ![x, y, z, 0] :=
  ⟨hxy, hz1, hz0, fun _ => hz0⟩

theorem carriageLimit_tall (i : Fin 3) : carriageLimit tallConfig i = 1400 + 1 / 100 := by
  unfold carriageLimit tallConfig
  fin_cases i <;> rfl

/-- A position inside the tall delta: no tower is further away than an arm, and the limit of no
carriage is nearer. -/
theorem inside_tall {x y z : ℝ} (hxy : x ^ 2 + y ^ 2 ≤ 22500) (hz0 : 0 ≤ z) (hz1 : z ≤ 1000)
    (h : ∀ t ∈ [((-300 : ℝ), (0 : ℝ)), (300, 0), (0, 300)],
      (x - t.1) ^ 2 + (y - t.2) ^ 2 ≤ 250000 ∧
        250000 ≤ (x - t.1) ^ 2 + (y - t.2) ^ 2 + (z - (1400 + 1 / 100)) ^ 2) :
    Inside tallConfig .main ![x, y, z, 0] := by
  refine ⟨Or.inl (inBuildRange_tall hxy hz0 hz1), fun i => carriageWithin_iff.mpr ?_⟩
  have harm : tallConfig.arm2 i = 250000 := by
    unfold tallConfig
    fin_cases i <;> rfl
  obtain ⟨hreach, hclear⟩ := h (tallConfig.towers i) (by fin_cases i <;> simp [tallConfig])
  have hlow : z ≤ 1400 + 1 / 100 := hz1.trans (by norm_num)
  unfold reach2 clearance
  rw [carriageLimit_tall, harm]
  change 0 ≤ 250000 - (x - _) ^ 2 - (y - _) ^ 2 ∧ z ≤ _ ∧
    0 ≤ (x - _) ^ 2 + (y - _) ^ 2 + (z - _) ^ 2 - 250000
  exact ⟨by linarith, hlow, by linarith⟩

theorem inside_tall_home : Inside tallConfig .main ![0, 0, 1000, 0] :=
  inside_tall (by norm_num) (by norm_num) (by norm_num) (by norm_num)

/-- Straight down from the home position. -/
theorem moves_stayInside_iff_down :
    let limits : ToolheadLimits ℝ := .init (141 / 100) ⟨400, 10000, 5000, 5⟩
    ∃ s₀ s : DeltaToolhead ℝ, tallDelta.init = .ok (tallConfig, 400) ∧
      s₀.commandedPos = ![0, 0, 1000, 0] ∧ s.commandedPos = ![0, 0, 900, 0] ∧
      Run (fun s e t => Moves tallConfig s e t ∧ s.StaysInside tallConfig e) s₀
        [.move ![0, 0, 900, 0] 100 .main limits fun _ => true] s := by
  intro limits
  clear_value limits
  have hlow : Inside tallConfig .main ![0, 0, 900, 0] :=
    inside_tall (by norm_num) (by norm_num) (by norm_num) (by norm_num)
  obtain ⟨s₀, hs₀⟩ : ∃ s₀, s₀ = (init (400 : ℝ)).apply tallConfig Real.sqrt
      (.setPosition ![0, 0, 1000, 0] [0, 1, 2]) := ⟨_, rfl⟩
  have hpos₀ : s₀.commandedPos = ![0, 0, 1000, 0] := by
    rw [hs₀]
    rfl
  have hhome₀ : s₀.kin.needHome = false := by
    rw [hs₀]
    rfl
  have hlong : 1 ≤ moveDSq s₀.commandedPos ![0, 0, 900, 0] := by
    rw [hpos₀]
    change (1 : ℝ) ≤ (0 - 0) ^ 2 + (0 - 0) ^ 2 + (900 - 1000) ^ 2
    norm_num
  obtain ⟨s, hmoves, hpos, -⟩ := exists_moves_to 100 limits hhome₀ hlow hlong
  refine ⟨s₀, s, tallDelta_init, hpos₀, hpos, ?_⟩
  refine (moves_stayInside_iff tallDelta_init (.single hs₀)
    (hpos₀ ▸ inside_tall_home.carriages)).mpr (.single ⟨hmoves, fun hkm => ?_⟩)
  dsimp only
  rw [Move.startPos_init, Move.endPos_init hkm, hpos₀]
  refine ⟨Or.inl ⟨?_, ?_⟩, fun i => (carriageWithin_iff.mp (hlow.carriages i)).1, ?_⟩
  · exact inBuildRange_tall (by norm_num) (by norm_num) (by norm_num)
  · exact inBuildRange_tall (by norm_num) (by norm_num) (by norm_num)
  · rintro i ⟨hdown, -, -⟩
    unfold departure at hdown
    rw [carriageLimit_tall] at hdown
    change (0 - _) * (0 - 0) + (0 - _) * (0 - 0) + ((1000 : ℝ) - _) * (900 - 1000) < 0 at hdown
    norm_num at hdown

/-- Across the corner in front of a tower, between two positions inside the tall delta. -/
theorem moves_leave_inside :
    let limits : ToolheadLimits ℝ := .init (141 / 100) ⟨400, 10000, 5000, 5⟩
    ∃ s₀ s : DeltaToolhead ℝ, tallDelta.init = .ok (tallConfig, 400) ∧
      Run (fun s e t => t = s.apply tallConfig Real.sqrt e) (init 400)
        [.setPosition ![0, 0, 1000, 0] [0, 1, 2],
          .move ![0, 0, 900, 0] 100 .main limits fun _ => true,
          .move ![-100, 100, 900, 0] 100 .main limits fun _ => true,
          .move ![-100, 100, 9527 / 10, 0] 100 .main limits fun _ => true] s₀ ∧
      Inside tallConfig .main s₀.commandedPos ∧
      Run (Moves tallConfig) s₀ [.move ![100, 100, 9527 / 10, 0] 100 .main limits fun _ => true] s ∧
      ¬ Run (fun s e t => Moves tallConfig s e t ∧ s.StaysInside tallConfig e) s₀
        [.move ![100, 100, 9527 / 10, 0] 100 .main limits fun _ => true] s := by
  intro limits
  clear_value limits
  have hinside₁ : Inside tallConfig .main ![0, 0, 900, 0] :=
    inside_tall (by norm_num) (by norm_num) (by norm_num) (by norm_num)
  have hinside₂ : Inside tallConfig .main ![-100, 100, 900, 0] :=
    inside_tall (by norm_num) (by norm_num) (by norm_num) (by norm_num)
  have hinside₃ : Inside tallConfig .main ![-100, 100, 9527 / 10, 0] :=
    inside_tall (by norm_num) (by norm_num) (by norm_num) (by norm_num)
  have hinside₄ : Inside tallConfig .main ![100, 100, 9527 / 10, 0] :=
    inside_tall (by norm_num) (by norm_num) (by norm_num) (by norm_num)
  obtain ⟨s₁, h₁, hpos₁, hhome₁⟩ := exists_moves_to 100 limits
    (s := (init (400 : ℝ)).apply tallConfig Real.sqrt
      (.setPosition ![0, 0, 1000, 0] [0, 1, 2])) rfl hinside₁ (by
        change (1 : ℝ) ≤ (0 - 0) ^ 2 + (0 - 0) ^ 2 + (900 - 1000) ^ 2
        norm_num)
  obtain ⟨s₂, h₂, hpos₂, hhome₂⟩ := exists_moves_to 100 limits hhome₁
    hinside₂ (by
      rw [hpos₁]
      change (1 : ℝ) ≤ (-100 - 0) ^ 2 + (100 - 0) ^ 2 + (900 - 900) ^ 2
      norm_num)
  obtain ⟨s₃, h₃, hpos₃, hhome₃⟩ := exists_moves_to 100 limits hhome₂
    hinside₃ (by
      rw [hpos₂]
      change (1 : ℝ) ≤ (-100 - -100) ^ 2 + (100 - 100) ^ 2 + (9527 / 10 - 900) ^ 2
      norm_num)
  have hlong : 1 ≤ moveDSq s₃.commandedPos ![100, 100, 9527 / 10, 0] := by
    rw [hpos₃]
    change (1 : ℝ) ≤ (100 - -100) ^ 2 + (100 - 100) ^ 2 + (9527 / 10 - 9527 / 10) ^ 2
    norm_num
  obtain ⟨s₄, h₄, -, -⟩ := exists_moves_to 100 limits hhome₃ hinside₄ hlong
  refine ⟨s₃, s₄, tallDelta_init, ?_, hpos₃ ▸ hinside₃, .single h₄, ?_⟩
  · exact .cons rfl (.cons h₁.2.2 (.cons h₂.2.2 (.single h₃.2.2)))
  · intro hrun
    obtain ⟨u, hu, -, hstays⟩ := Run.exists_last [] hrun
    obtain rfl := hu.eq_of_nil
    have hkm := isKinematicMove_of_long limits 100 hlong
    have hmiddle := (hstays hkm (1 / 2) (by norm_num) (by norm_num)).carriages 2
    rw [Move.startPos_init, Move.endPos_init hkm, hpos₃] at hmiddle
    have hclear := (carriageWithin_iff.mp hmiddle).2.2
    change (0 : ℝ) ≤ (-100 + 1 / 2 * (100 - -100) - 0) ^ 2 + (100 + 1 / 2 * (100 - 100) - 300) ^ 2 +
      (9527 / 10 + 1 / 2 * (9527 / 10 - 9527 / 10) - (1400 + 1 / 100)) ^ 2 - 250000 at hclear
    norm_num at hclear

end DeltaToolhead

end FlsunT1.Klippy
