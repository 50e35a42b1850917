/-
  Chelper/StepSearch.lean --- the search for a move that fits the queue.

  `compress_bisect_add` looks for an interval and an add such that the times of
  the move stay inside the windows of the points.  Whatever add a round tries,
  the intervals it keeps are exactly the fitting ones, its arithmetic stays in 32
  bits, and the range of add shrinks, so the search ends with a move that fits.
-/
import FlsunT1.Chelper.StepCompress
import FlsunT1.Library.Quadratic
import Mathlib.Data.List.Chain

set_option autoImplicit false

namespace FlsunT1.Chelper

open FlsunT1.Library

/-! ## Rounded division -/

theorem idivUp_le_iff {n d i : Int} (hd : 0 < d) (h0 : -0x80000000 ≤ n)
    (h1 : n + d - 1 < 0x80000000) : idivUp n d ≤ i ↔ n ≤ i * d := by
  unfold idivUp
  split
  · rename_i hn
    rw [i32_of_range (by omega) h1, Int.tdiv_eq_ediv_of_nonneg (by omega), Int.le_iff_lt_add_one,
      Int.ediv_lt_iff_lt_mul hd]
    have : (i + 1) * d = i * d + d := by ring
    omega
  · rename_i hn
    have hneg : n.tdiv d = -((-n) / d) := by
      rw [← Int.neg_neg n, Int.neg_tdiv, Int.neg_neg, Int.tdiv_eq_ediv_of_nonneg (by omega)]
    rw [hneg]
    have : -i ≤ (-n) / d ↔ (-i) * d ≤ -n := Int.le_ediv_iff_mul_le hd
    have hmul : (-i) * d = -(i * d) := by ring
    omega

theorem le_idivDown_iff {n d i : Int} (hd : 0 < d) (h0 : -0x80000000 ≤ n - d + 1) :
    i ≤ idivDown n d ↔ i * d ≤ n := by
  unfold idivDown
  split
  · rename_i hn
    rw [Int.tdiv_eq_ediv_of_nonneg hn, Int.le_ediv_iff_mul_le hd]
  · rename_i hn
    rw [i32_of_range h0 (by omega)]
    have hneg : (n - d + 1).tdiv d = -((-(n - d + 1)) / d) := by
      rw [← Int.neg_neg (n - d + 1), Int.neg_tdiv, Int.neg_neg,
        Int.tdiv_eq_ediv_of_nonneg (by omega)]
    rw [hneg]
    have : (-(n - d + 1)) / d < -i + 1 ↔ -(n - d + 1) < (-i + 1) * d := Int.ediv_lt_iff_lt_mul hd
    have hmul : (-i + 1) * d = -(i * d) + d := by ring
    omega

/-! ## Points and moves that fit -/

/-- The windows of the points are positive, below the largest clock difference,
no wider than the largest error, and one comes after the other. -/
structure Spaced (points : List Points) : Prop where
  window : ∀ p ∈ points,
    0 < p.minp ∧ p.minp ≤ p.maxp ∧ p.maxp < clockDiffMax ∧ p.maxp - p.minp ≤ 65535
  apart : points.IsChain fun p q => p.maxp < q.minp
  length : points.length ≤ 65535

/-- The first `count` times of the sequence fit the points. -/
def Fits (points : List Points) (interval add : Int) (count : Nat) : Prop :=
  ∀ j p, j < count → points[j]? = some p →
    p.minp ≤ quad interval add (j + 1) ∧ quad interval add (j + 1) ≤ p.maxp

/-- A move that fits the points it covers. -/
structure FitMove (points : List Points) (move : StepMove) : Prop where
  count : ∃ n : Nat, move.count = n ∧ 1 ≤ n ∧ n ≤ points.length ∧
    Fits points move.interval move.add n
  add : -32768 ≤ move.add ∧ move.add ≤ 32767

namespace Fits

variable {points : List Points} {v a : Int} {k : Nat}

theorem mono {k' : Nat} (h : Fits points v a k) (hk : k' ≤ k) : Fits points v a k' :=
  fun j p hj hp => h j p (by omega) hp

theorem succ_iff {p : Points} (hp : points[k]? = some p) :
    Fits points v a (k + 1) ↔
      Fits points v a k ∧ p.minp ≤ quad v a (k + 1) ∧ quad v a (k + 1) ≤ p.maxp := by
  constructor
  · intro h
    exact ⟨h.mono (by omega), h k p (by omega) hp⟩
  · rintro ⟨h, hlast⟩ j q hj hq
    rcases Nat.lt_succ_iff_lt_or_eq.mp hj with hj | rfl
    · exact h j q hj hq
    · rw [hp, Option.some.injEq] at hq
      exact hq ▸ hlast

end Fits

theorem Spaced.lt {points : List Points} (hs : Spaced points) {i j : Nat} {p q : Points}
    (hij : i < j) (hp : points[i]? = some p) (hq : points[j]? = some q) : p.maxp < q.minp := by
  have hchain := List.isChain_iff_getElem.mp hs.apart
  induction j, hij using Nat.le_induction generalizing q with
  | base =>
    obtain ⟨hi, rfl⟩ := List.getElem?_eq_some_iff.mp hp
    obtain ⟨hj, rfl⟩ := List.getElem?_eq_some_iff.mp hq
    exact hchain i hj
  | succ j hij ih =>
    obtain ⟨hj, rfl⟩ := List.getElem?_eq_some_iff.mp hq
    have hmid := ih (List.getElem?_eq_getElem (Nat.lt_of_succ_lt hj))
    have hwin := hs.window points[j] (List.getElem_mem _)
    have := hchain j hj
    omega

/-- The first and the last interval of a fitting sequence, and how far it goes. -/
structure Reach (v a : Int) (k : Nat) : Prop where
  first : 0 < v
  last : 0 < v + a * (k - 1) ∧ v + a * (k - 1) < clockDiffMax
  total : 0 < quad v a k ∧ quad v a k < clockDiffMax

theorem Fits.reach {points : List Points} {v a : Int} {k : Nat} (hs : Spaced points)
    (h : Fits points v a k) (hk : 1 ≤ k) (hlen : k ≤ points.length) : Reach v a k := by
  obtain ⟨n, rfl⟩ : ∃ n, k = n + 1 := ⟨k - 1, by omega⟩
  have hget : ∀ j, j ≤ n → ∃ p, points[j]? = some p := fun j hj =>
    ⟨_, List.getElem?_eq_getElem (show j < points.length by omega)⟩
  obtain ⟨p0, hp0⟩ := hget 0 (by omega)
  obtain ⟨pn, hpn⟩ := hget n (le_refl _)
  have hw0 := hs.window p0 (List.mem_of_getElem? hp0)
  have hwn := hs.window pn (List.mem_of_getElem? hpn)
  have h0 := h 0 p0 (by omega) hp0
  have hn := h n pn (by omega) hpn
  simp only [Nat.cast_zero, zero_add, quad_one] at h0
  have hcast : ((n + 1 : Nat) : Int) = (n : Int) + 1 := by omega
  refine ⟨by omega, ?_, by rw [hcast]; omega⟩
  rw [hcast, add_sub_cancel_right]
  cases n with
  | zero =>
    simp only [Nat.cast_zero, mul_zero, add_zero]
    omega
  | succ m =>
    obtain ⟨pm, hpm⟩ := hget m (by omega)
    have hwm := hs.window pm (List.mem_of_getElem? hpm)
    have hm := h m pm (by omega) hpm
    have hlt := hs.lt (Nat.lt_succ_self m) hpm hpn
    have hstep := quad_succ v a ((m + 1 : Nat) : Int)
    have hcast' : ((m + 1 : Nat) : Int) = (m : Int) + 1 := by omega
    rw [hcast'] at hstep hn ⊢
    omega

/-- The largest values of `add * nextaddfactor` and `interval * nextcount`. -/
def quadMax : Int := 821741192

def linearMax : Int := 1865171600

theorem Reach.bounds {v a : Int} {k : Nat} (h : Reach v a k) (hk : 1 ≤ k) (ha : |a| ≤ 32768) :
    |a| * triangle k < clockDiffMax ∧ |a| * triangle (k + 1) < quadMax ∧ 0 < v * (k + 1) ∧
      v * (k + 1) < linearMax := by
  have hk' : (1 : Int) ≤ k := by omega
  obtain ⟨htri, hlin⟩ := quad_parts hk' h.first.le h.last.1.le h.total.2
  have h1 := triangle_succ_bound hk' ha htri
  have h2 := mul_succ_bound hk' h.first ha (by omega) h.total.2 hlin
  refine ⟨htri, ?_, mul_pos h.first (by omega), ?_⟩
  · unfold clockDiffMax quadMax at *
    omega
  · unfold clockDiffMax linearMax at *
    omega

/-- The product that `compress_bisect_add` computes for `add` is exact: the factor
can leave 32 bits only when add is 0. -/
theorem addfactor_exact {a n : Int} (hn : 1 ≤ n) (h : |a| * triangle n < quadMax) :
    i32 (a * (i32 (n * (n - 1))).tdiv 2) = a * triangle n := by
  rcases eq_or_ne a 0 with rfl | ha
  · simp [i32]
  have htri0 := triangle_nonneg hn
  have htri := two_mul_triangle n
  have habs : 1 ≤ |a| := Int.one_le_abs ha
  have hle : triangle n ≤ |a| * triangle n := le_mul_of_one_le_left htri0 habs
  unfold quadMax at h
  have hfactor : (i32 (n * (n - 1))).tdiv 2 = triangle n := by
    rw [i32_of_range (by omega) (by omega), Int.tdiv_eq_ediv_of_nonneg (by omega)]
    rfl
  rw [hfactor]
  have hprod : |a * triangle n| < 821741192 := by rw [abs_mul, abs_of_nonneg htri0]; exact h
  rw [abs_lt] at hprod
  exact i32_of_range (by omega) (by omega)

/-! ## The inner loop -/

/-- The lower limit after one more point: what was a limit before, and what the
point asks for. -/
theorem nextmininterval_le_iff {lo n c minp : Int} (hn : 1 ≤ n ∧ n ≤ 65536)
    (hlo : 0 < lo * n ∧ lo * n < linearMax) (hc : -quadMax < c ∧ c < quadMax)
    (hp : 0 < minp ∧ minp < clockDiffMax) (i : Int) :
    (if i32 (lo * n) < i32 (minp - c) then idivUp (i32 (minp - c)) n else lo) ≤ i ↔
      lo ≤ i ∧ minp - c ≤ i * n := by
  unfold linearMax at hlo
  unfold quadMax at hc
  unfold clockDiffMax at hp
  rw [i32_of_range (by omega) (by omega), i32_of_range (by omega) (by omega)]
  split
  · rename_i hlt
    rw [idivUp_le_iff (by omega) (by omega) (by omega)]
    refine ⟨fun h => ⟨?_, h⟩, fun h => h.2⟩
    by_contra hle
    have : (i + 1) * n ≤ lo * n := mul_le_mul_of_nonneg_right (by omega) (by omega)
    have hexp : (i + 1) * n = i * n + n := by ring
    omega
  · rename_i hge
    refine ⟨fun h => ⟨h, ?_⟩, fun h => h.1⟩
    have : lo * n ≤ i * n := mul_le_mul_of_nonneg_right h (by omega)
    omega

theorem le_nextmaxinterval_iff {hi n c maxp : Int} (hn : 1 ≤ n ∧ n ≤ 65536)
    (hhi : 0 < hi * n ∧ hi * n < linearMax) (hc : -quadMax < c ∧ c < quadMax)
    (hp : 0 < maxp ∧ maxp < clockDiffMax) (i : Int) :
    (i ≤ if i32 (hi * n) > i32 (maxp - c) then idivDown (i32 (maxp - c)) n else hi) ↔
      i ≤ hi ∧ i * n ≤ maxp - c := by
  unfold linearMax at hhi
  unfold quadMax at hc
  unfold clockDiffMax at hp
  rw [i32_of_range (by omega) (by omega), i32_of_range (by omega) (by omega)]
  split
  · rename_i hgt
    rw [le_idivDown_iff (by omega) (by omega)]
    refine ⟨fun h => ⟨?_, h⟩, fun h => h.2⟩
    by_contra hle
    have : (hi + 1) * n ≤ i * n := mul_le_mul_of_nonneg_right (by omega) (by omega)
    have hexp : (hi + 1) * n = hi * n + n := by ring
    omega
  · rename_i hle
    refine ⟨fun h => ⟨h, ?_⟩, fun h => h.1⟩
    have : i * n ≤ hi * n := mul_le_mul_of_nonneg_right h (by omega)
    omega

/-- One more point for the intervals from `lo` to `hi`, which fit so far: the products are
exact, and the new limits enclose the intervals that fit it as well. -/
theorem findSequence_next {points : List Points} {a lo hi : Int} {k : Nat} {nextpoint : Points}
    (hs : Spaced points) (ha : |a| ≤ 32768) (hk : 1 ≤ k) (hpoint : points[k]? = some nextpoint)
    (hlohi : lo ≤ hi) (hfits : ∀ i, lo ≤ i → i ≤ hi → Fits points i a k) :
    i32 (a * (i32 (((k : Int) + 1) * ((k : Int) + 1 - 1))).tdiv 2) = a * triangle (k + 1) ∧
      (-quadMax < a * triangle ((k : Int) + 1) ∧ a * triangle ((k : Int) + 1) < quadMax) ∧
      (0 < lo * ((k : Int) + 1) ∧ lo * ((k : Int) + 1) < linearMax) ∧
      (0 < hi * ((k : Int) + 1) ∧ hi * ((k : Int) + 1) < linearMax) ∧
      (∀ i, (if i32 (lo * ((k : Int) + 1)) < i32 (nextpoint.minp - a * triangle ((k : Int) + 1))
          then idivUp (i32 (nextpoint.minp - a * triangle ((k : Int) + 1))) ((k : Int) + 1)
          else lo) ≤ i ↔
        lo ≤ i ∧ nextpoint.minp - a * triangle ((k : Int) + 1) ≤ i * ((k : Int) + 1)) ∧
      (∀ i, (i ≤ if i32 (hi * ((k : Int) + 1)) >
            i32 (nextpoint.maxp - a * triangle ((k : Int) + 1))
          then idivDown (i32 (nextpoint.maxp - a * triangle ((k : Int) + 1))) ((k : Int) + 1)
          else hi) ↔
        i ≤ hi ∧ i * ((k : Int) + 1) ≤ nextpoint.maxp - a * triangle ((k : Int) + 1)) := by
  obtain ⟨hklt, -⟩ := List.getElem?_eq_some_iff.mp hpoint
  have hwin := hs.window nextpoint (List.mem_of_getElem? hpoint)
  have hlength := hs.length
  have hloReach := (hfits lo (le_refl _) hlohi).reach hs hk hklt.le
  have hhiReach := (hfits hi hlohi (le_refl _)).reach hs hk hklt.le
  obtain ⟨-, hquad, hlo0, hlo1⟩ := hloReach.bounds hk ha
  obtain ⟨-, -, hhi0, hhi1⟩ := hhiReach.bounds hk ha
  have hc := addfactor_exact (a := a) (n := (k : Int) + 1) (by omega) hquad
  have hquad' : |a * triangle ((k : Int) + 1)| < quadMax := by
    rw [abs_mul, abs_of_nonneg (triangle_nonneg (n := (k : Int) + 1) (by omega))]
    exact hquad
  rw [abs_lt] at hquad'
  have hn : (1 : Int) ≤ (k : Int) + 1 ∧ (k : Int) + 1 ≤ 65536 := by omega
  have hlower := nextmininterval_le_iff hn ⟨hlo0, hlo1⟩ hquad'
    (show 0 < nextpoint.minp ∧ nextpoint.minp < clockDiffMax from ⟨by omega, by omega⟩)
  have hupper := le_nextmaxinterval_iff hn ⟨hhi0, hhi1⟩ hquad'
    (show 0 < nextpoint.maxp ∧ nextpoint.maxp < clockDiffMax from ⟨by omega, by omega⟩)
  exact ⟨hc, hquad', ⟨hlo0, hlo1⟩, ⟨hhi0, hhi1⟩, hlower, hupper⟩

theorem Fits.next {points : List Points} {a lo hi nextmin nextmax : Int} {k : Nat}
    {nextpoint : Points} (hpoint : points[k]? = some nextpoint)
    (hfits : ∀ i, lo ≤ i → i ≤ hi → Fits points i a k)
    (hlower : ∀ i, nextmin ≤ i ↔
      lo ≤ i ∧ nextpoint.minp - a * triangle ((k : Int) + 1) ≤ i * ((k : Int) + 1))
    (hupper : ∀ i, i ≤ nextmax ↔
      i ≤ hi ∧ i * ((k : Int) + 1) ≤ nextpoint.maxp - a * triangle ((k : Int) + 1))
    (i : Int) (hi1 : nextmin ≤ i) (hi2 : i ≤ nextmax) : Fits points i a (k + 1) := by
  rw [Fits.succ_iff hpoint]
  have h1 := (hlower i).mp hi1
  have h2 := (hupper i).mp hi2
  refine ⟨hfits i h1.1 h2.1, ?_, ?_⟩
  · unfold quad; omega
  · unfold quad; omega

/-- The inner loop stopped at the point number `k`: no interval fits it as well. -/
structure Broken (points : List Points) (a outerMin outerMax : Int) (k : Nat)
    (q : Sequence) : Prop where
  range : 1 ≤ k ∧ k < points.length
  nextcount : q.nextcount = k + 1
  nextpoint : points[k]? = some q.nextpoint
  fits : Fits points q.interval a k
  outer : q.interval ≤ outerMax
  lower : ∃ lo, outerMin ≤ lo ∧ lo ≤ q.interval ∧ ∀ i, q.nextmininterval ≤ i ↔
    lo ≤ i ∧ q.nextpoint.minp - a * triangle (k + 1) ≤ i * (k + 1)
  upper : ∀ i, i ≤ q.nextmaxinterval ↔
    i ≤ q.interval ∧ i * (k + 1) ≤ q.nextpoint.maxp - a * triangle (k + 1)
  empty : q.nextmininterval > q.nextmaxinterval

/-- The limits of the inner loop enclose intervals that fit, all the way. -/
theorem findSequence_spec {points : List Points} {a outerMin outerMax : Int}
    (hs : Spaced points) (ha : |a| ≤ 32768) :
    ∀ (rest : List Points) (k : Nat) (lo hi : Int), rest = points.drop k → 1 ≤ k →
      k ≤ points.length → outerMin ≤ lo → lo ≤ hi → hi ≤ outerMax →
      (∀ i, lo ≤ i → i ≤ hi → Fits points i a k) →
      (∃ i, findSequence a rest k lo hi hi =
          .inl { interval := i, count := points.length, add := a } ∧
          Fits points i a points.length) ∨
        ∃ q k', findSequence a rest k lo hi hi = .inr q ∧
          Broken points a outerMin outerMax k' q := by
  intro rest
  induction rest with
  | nil =>
    intro k lo hi hrest hk hlen _ hlohi _ hfits
    have hk' : k = points.length := by
      have := List.drop_eq_nil_iff.mp hrest.symm
      omega
    subst hk'
    exact .inl ⟨hi, rfl, hfits hi hlohi (le_refl _)⟩
  | cons nextpoint rest ih =>
    intro k lo hi hrest hk hlen hout hlohi houter hfits
    have hklt : k < points.length := by
      by_contra hge
      rw [List.drop_eq_nil_of_le (by omega)] at hrest
      cases hrest
    have hpoint : points[k]? = some nextpoint := by
      rw [List.getElem?_eq_getElem hklt]
      rw [List.drop_eq_getElem_cons hklt] at hrest
      simp only [List.cons.injEq] at hrest
      rw [hrest.1]
    have hrest' : rest = points.drop (k + 1) := by
      rw [List.drop_eq_getElem_cons hklt] at hrest
      simp only [List.cons.injEq] at hrest
      exact hrest.2
    have hwin := hs.window nextpoint (List.mem_of_getElem? hpoint)
    obtain ⟨hc, -, -, -, hlower, hupper⟩ := findSequence_next hs ha hk hpoint hlohi hfits
    simp only [findSequence, hc]
    generalize (if i32 (lo * ((k : Int) + 1)) <
        i32 (nextpoint.minp - a * triangle ((k : Int) + 1)) then
        idivUp (i32 (nextpoint.minp - a * triangle ((k : Int) + 1))) ((k : Int) + 1)
      else lo) = nextmin at hlower ⊢
    generalize (if i32 (hi * ((k : Int) + 1)) >
        i32 (nextpoint.maxp - a * triangle ((k : Int) + 1)) then
        idivDown (i32 (nextpoint.maxp - a * triangle ((k : Int) + 1))) ((k : Int) + 1)
      else hi) = nextmax at hupper ⊢
    split
    · rename_i hempty
      exact .inr ⟨_, k, rfl,
        { range := ⟨hk, hklt⟩
          nextcount := rfl
          nextpoint := hpoint
          fits := hfits hi hlohi (le_refl _)
          outer := houter
          lower := ⟨lo, hout, hlohi, hlower⟩
          upper := hupper
          empty := hempty }⟩
    · rename_i hle
      have hcast : ((k + 1 : Nat) : Int) = (k : Int) + 1 := by omega
      have hmin := (hlower nextmin).mp (le_refl _)
      have hmax := (hupper nextmax).mp (le_refl _)
      have hnext := ih (k + 1) nextmin nextmax hrest' (by omega) (by omega) (by omega) (by omega)
        (by omega) (Fits.next hpoint hfits hlower hupper)
      rw [hcast] at hnext
      exact hnext

/-! ## A round of the outer loop -/

theorem i32_add_i32 (x y : Int) : i32 (i32 x + y) = i32 (x + y) := by
  unfold i32; omega

/-- The limits on interval and add that a search keeps. -/
structure Limits (point : Points) (b : Bisect) : Prop where
  outer : point.minp ≤ b.outerMininterval ∧ b.outerMininterval ≤ b.outerMaxinterval ∧
    b.outerMaxinterval ≤ point.maxp
  add : -32768 ≤ b.minadd ∧ b.minadd ≤ b.add ∧ b.add ≤ b.maxadd ∧ b.maxadd ≤ 32767

theorem Limits.abs_add {point : Points} {b : Bisect} (h : Limits point b) : |b.add| ≤ 32768 := by
  have := h.add
  rw [abs_le]
  omega

section Round

variable {points : List Points} {point : Points} {b : Bisect} {q : Sequence} {k : Nat}

theorem Broken.reach_eq {a lo hi : Int} (hs : Spaced points) (h : Broken points a lo hi k q)
    (hb : b.add = a) (ha : |a| ≤ 32768) : b.reach q = quad q.interval a k := by
  have hreach := h.fits.reach hs h.range.1 (le_of_lt h.range.2)
  obtain ⟨htri, -, -, -⟩ := hreach.bounds h.range.1 ha
  have hk : (1 : Int) ≤ k := by have := h.range.1; omega
  have hexact := addfactor_exact (a := a) hk (by unfold quadMax; unfold clockDiffMax at htri; omega)
  have htotal := hreach.total
  unfold Bisect.reach
  simp only [h.nextcount, add_sub_cancel_right, hb]
  rw [← i32_add_i32, hexact]
  unfold quad clockDiffMax at *
  exact i32_of_range (by omega) (by omega)

theorem Broken.next_eq {a lo hi : Int} (hs : Spaced points) (h : Broken points a lo hi k q)
    (ha : |a| ≤ 32768) (hk : k ≤ 512) :
    (i32 (q.nextcount * (q.nextcount - 1))).tdiv 2 = triangle (k + 1) ∧
      1 ≤ triangle ((k : Int) + 1) ∧ triangle ((k : Int) + 1) ≤ k * k ∧
      i32 (a * triangle (k + 1) + q.interval * q.nextcount) = quad q.interval a (k + 1) := by
  have hreach := h.fits.reach hs h.range.1 (le_of_lt h.range.2)
  have hk1 := h.range.1
  have htri := two_mul_triangle ((k : Int) + 1)
  have hexp : ((k : Int) + 1) * ((k : Int) + 1 - 1) = k * k + k := by ring
  have hkk : (k : Int) * k ≤ 512 * 512 := mul_le_mul (by omega) (by omega) (by omega) (by omega)
  have hkk' : (k : Int) ≤ k * k := le_mul_of_one_le_left (by omega) (by omega)
  rw [h.nextcount]
  refine ⟨?_, by omega, by omega, ?_⟩
  · rw [i32_of_range (by omega) (by omega), Int.tdiv_eq_ediv_of_nonneg (by omega)]
    rfl
  · have hstep := quad_succ q.interval a k
    have hlast := hreach.last
    have htotal := hreach.total
    have hmul : a * ((k : Int) - 1) = a * k - a := by ring
    rw [abs_le] at ha
    unfold clockDiffMax at *
    exact i32_of_range (by unfold quad at *; omega) (by unfold quad at *; omega)

/-- The side on which the sequence misses the next point narrows the range of add,
and the limits of the interval stay in order. -/
theorem Limits.narrowSide (hl : Limits point b) (hs : Spaced points)
    (h : Broken points b.add b.outerMininterval b.outerMaxinterval k q) (hk : k ≤ 512) :
    (point.minp ≤ (b.narrowSide q).outerMininterval ∧
        (b.narrowSide q).outerMininterval ≤ (b.narrowSide q).outerMaxinterval ∧
        (b.narrowSide q).outerMaxinterval ≤ point.maxp) ∧
      (((b.narrowSide q).minadd = b.add + 1 ∧ (b.narrowSide q).maxadd = b.maxadd) ∨
        ((b.narrowSide q).minadd = b.minadd ∧ (b.narrowSide q).maxadd = b.add - 1)) := by
  obtain ⟨hfactor, -, -, hnext⟩ := h.next_eq hs hl.abs_add hk
  obtain ⟨lo, hlo1, hlo2, hlower⟩ := h.lower
  have houter := hl.outer
  have hadd := hl.add
  have hmax := (h.upper q.nextmaxinterval).mp (le_refl _)
  have hempty := h.empty
  have hwin := hs.window q.nextpoint (List.mem_of_getElem? h.nextpoint)
  have hint := h.outer
  unfold Bisect.narrowSide
  simp only [hfactor, hnext]
  split
  · -- the sequence falls short of the point: its own limit stays
    rename_i hshort
    have hle : q.interval ≤ q.nextmaxinterval :=
      (h.upper q.interval).mpr ⟨le_refl _, by unfold quad at hshort; omega⟩
    refine ⟨by simp only; omega, .inl ⟨?_, rfl⟩⟩
    exact i32_of_range (by omega) (by omega)
  · -- the sequence goes beyond the point
    rename_i hfar
    have hle : q.nextmininterval ≤ q.interval :=
      (hlower q.interval).mpr ⟨hlo2, by unfold quad at hfar; omega⟩
    have hge : lo ≤ q.nextmininterval := ((hlower q.nextmininterval).mp (le_refl _)).1
    refine ⟨by simp only; omega, .inr ⟨rfl, ?_⟩⟩
    exact i32_of_range (by omega) (by omega)

/-- The deviation narrows the range of add on both sides, and leaves its ends so
close to the add just tried that their products stay in 32 bits. -/
theorem narrowDeviation_spec {maxError a t : Int} (hq : q.nextcount = k + 1)
    (hk : 1 ≤ k ∧ k ≤ 512) (herr : 0 ≤ maxError ∧ maxError < 65536) (ha : b.add = a)
    (hmin : -32768 ≤ b.minadd ∧ b.minadd ≤ a + 1) (hmax : a - 1 ≤ b.maxadd ∧ b.maxadd ≤ 32767)
    (ht : 1 ≤ t ∧ t ≤ k * k) (hat : |a| * t < quadMax)
    (htone : k = 1 → t = 1) :
    (b.narrowDeviation maxError q).outerMininterval = b.outerMininterval ∧
      (b.narrowDeviation maxError q).outerMaxinterval = b.outerMaxinterval ∧
      b.minadd ≤ (b.narrowDeviation maxError q).minadd ∧
      (b.narrowDeviation maxError q).maxadd ≤ b.maxadd ∧
      |(b.narrowDeviation maxError q).minadd * t| < 900000000 ∧
      |(b.narrowDeviation maxError q).maxadd * t| < 900000000 := by
  have hkk : (k : Int) * k ≤ 512 * 512 := mul_le_mul (by omega) (by omega) (by omega) (by omega)
  have hatt : |a * t| < quadMax := by rw [abs_mul, abs_of_nonneg (show 0 ≤ t by omega)]; exact hat
  rw [abs_lt] at hatt
  unfold quadMax at hatt
  unfold Bisect.narrowDeviation
  simp only [hq, add_sub_cancel_right]
  split
  · rename_i hk2
    -- the deviation shrinks as fast as the factor grows
    have herrdelta : u32 (maxError * quadraticDev) / u32 (i32 ((k : Int) * k)) =
        maxError * 11 / (k * k) := by
      unfold quadraticDev
      have hkk0 : 0 < (k : Int) * k := mul_pos (by omega) (by omega)
      rw [u32_of_range (by omega) (by omega), i32_of_range (by omega) (by omega),
        u32_of_range (by omega) (by omega)]
    rw [herrdelta]
    have hkk4 : 4 ≤ (k : Int) * k := by
      have : (2 : Int) * 2 ≤ (k : Int) * k := mul_le_mul (by omega) (by omega) (by omega) (by omega)
      omega
    have hmul : (maxError * 11 / (k * k)) * (k * k) ≤ maxError * 11 :=
      Int.ediv_mul_le _ (by omega)
    have hd0 : 0 ≤ maxError * 11 / ((k : Int) * k) := Int.ediv_nonneg (by omega) (by omega)
    generalize maxError * 11 / ((k : Int) * k) = d at hmul hd0 ⊢
    have hdt : d * t ≤ 720885 := by
      have : d * t ≤ d * (k * k) := mul_le_mul_of_nonneg_left ht.2 hd0
      omega
    have hdt0 : 0 ≤ d * t := mul_nonneg hd0 (by omega)
    have hd1 : d ≤ 720885 := le_trans (le_mul_of_one_le_right hd0 ht.1) hdt
    rw [i32_of_range (x := d) (by omega) (by omega), ha, i32_of_range (by omega) (by omega),
      i32_of_range (by omega) (by omega)]
    have hlow : ∀ x, a - d ≤ x → x ≤ a + d + 1 → |x * t| < 900000000 := by
      intro x h1 h2
      have hx1 : (a - d) * t ≤ x * t := mul_le_mul_of_nonneg_right h1 (by omega)
      have hx2 : x * t ≤ (a + d + 1) * t := mul_le_mul_of_nonneg_right h2 (by omega)
      have he1 : (a - d) * t = a * t - d * t := by ring
      have he2 : (a + d + 1) * t = a * t + d * t + t := by ring
      rw [abs_lt]
      constructor <;> omega
    have hlow' : ∀ x, a - d - 1 ≤ x → x ≤ a + d → |x * t| < 900000000 := by
      intro x h1 h2
      have hx1 : (a - d - 1) * t ≤ x * t := mul_le_mul_of_nonneg_right h1 (by omega)
      have hx2 : x * t ≤ (a + d) * t := mul_le_mul_of_nonneg_right h2 (by omega)
      have he1 : (a - d - 1) * t = a * t - d * t - t := by ring
      have he2 : (a + d) * t = a * t + d * t := by ring
      rw [abs_lt]
      constructor <;> omega
    refine ⟨rfl, rfl, ?_, ?_, ?_, ?_⟩
    · simp only; split <;> omega
    · simp only; split <;> omega
    · simp only; split
      · exact hlow _ (by omega) (by omega)
      · exact hlow _ (by omega) (by omega)
    · simp only; split
      · exact hlow' _ (by omega) (by omega)
      · exact hlow' _ (by omega) (by omega)
  · have hone : t = 1 := htone (by omega)
    subst hone
    refine ⟨rfl, rfl, le_refl _, le_refl _, ?_, ?_⟩ <;> rw [mul_one, abs_lt] <;> omega

theorem outer_products {v lo hi : Int} (hk : 1 ≤ k ∧ k ≤ 512) (hv : v * (k + 1) < linearMax)
    (houter : 0 < lo ∧ lo ≤ hi ∧ hi ≤ v + 65535) :
    0 < lo * ((k : Int) + 1) ∧ lo * ((k : Int) + 1) ≤ hi * (k + 1) ∧
      hi * ((k : Int) + 1) < 1900000000 := by
  have h1 : hi * ((k : Int) + 1) ≤ (v + 65535) * (k + 1) :=
    mul_le_mul_of_nonneg_right houter.2.2 (by omega)
  have h2 : (v + 65535) * ((k : Int) + 1) = v * (k + 1) + 65535 * (k + 1) := by ring
  unfold linearMax at hv
  exact ⟨mul_pos houter.1 (by omega), mul_le_mul_of_nonneg_right houter.2.1 (by omega), by omega⟩

/-- The next point narrows the range of add on both sides. -/
theorem narrowPoint_spec {t v : Int} (hq : q.nextcount = k + 1) (hk : 1 ≤ k ∧ k ≤ 512)
    (hfactor : (i32 (q.nextcount * (q.nextcount - 1))).tdiv 2 = t) (ht : 1 ≤ t ∧ t ≤ 262144)
    (hv : v * (k + 1) < linearMax)
    (houter : 0 < b.outerMininterval ∧ b.outerMininterval ≤ b.outerMaxinterval ∧
      b.outerMaxinterval ≤ v + 65535)
    (hp : 0 < q.nextpoint.minp ∧ q.nextpoint.minp ≤ q.nextpoint.maxp ∧
      q.nextpoint.maxp < clockDiffMax)
    (hmin : |b.minadd * t| < 900000000) (hmax : |b.maxadd * t| < 900000000) :
    (b.narrowPoint q).outerMininterval = b.outerMininterval ∧
      (b.narrowPoint q).outerMaxinterval = b.outerMaxinterval ∧
      b.minadd ≤ (b.narrowPoint q).minadd ∧ (b.narrowPoint q).maxadd ≤ b.maxadd := by
  obtain ⟨hminc0, hminc, hmaxc⟩ := outer_products hk hv houter
  rw [abs_lt] at hmin hmax
  unfold clockDiffMax at hp
  rw [hq] at hfactor
  unfold Bisect.narrowPoint
  simp only [hq, hfactor]
  rw [i32_of_range (x := b.outerMaxinterval * _) (by omega) (by omega),
    i32_of_range (x := b.outerMininterval * _) (by omega) (by omega),
    i32_of_range (x := b.minadd * t) (by omega) (by omega),
    i32_of_range (x := b.maxadd * t) (by omega) (by omega),
    i32_of_range (x := q.nextpoint.minp - _) (by omega) (by omega),
    i32_of_range (x := q.nextpoint.maxp - _) (by omega) (by omega)]
  refine ⟨trivial, trivial, ?_, ?_⟩
  · split
    · rename_i hlt
      by_contra hgt
      have := (idivUp_le_iff (i := b.minadd) (by omega) (by omega) (by omega)).mp
        (le_of_lt (not_le.mp hgt))
      omega
    · exact le_refl _
  · split
    · rename_i hgt
      by_contra hlt
      have := (le_idivDown_iff (i := b.maxadd) (by omega) (by omega)).mp
        (le_of_lt (not_le.mp hlt))
      omega
    · exact le_refl _

/-- Narrowing the range leaves the remembered sequences alone. -/
theorem Bisect.narrow_best (maxError : Int) (b : Bisect) (q : Sequence) :
    (b.narrow maxError q).bestinterval = b.bestinterval ∧
      (b.narrow maxError q).bestcount = b.bestcount ∧
      (b.narrow maxError q).bestadd = b.bestadd ∧
      (b.narrow maxError q).bestreach = b.bestreach ∧
      (b.narrow maxError q).zerointerval = b.zerointerval ∧
      (b.narrow maxError q).zerocount = b.zerocount := by
  have hside : ∀ b : Bisect, ∃ x y z w, b.narrowSide q =
      { b with outerMininterval := x, outerMaxinterval := y, minadd := z, maxadd := w } := by
    intro b
    unfold Bisect.narrowSide
    dsimp only
    split
    · exact ⟨_, _, _, _, rfl⟩
    · exact ⟨_, _, _, _, rfl⟩
  have hdev : ∀ b : Bisect, ∃ z w, b.narrowDeviation maxError q =
      { b with minadd := z, maxadd := w } := by
    intro b
    unfold Bisect.narrowDeviation
    dsimp only
    split
    · exact ⟨_, _, rfl⟩
    · exact ⟨b.minadd, b.maxadd, rfl⟩
  obtain ⟨x, y, z, w, h1⟩ := hside b
  obtain ⟨z', w', h2⟩ := hdev (b.narrowSide q)
  unfold Bisect.narrow Bisect.narrowPoint
  rw [h2, h1]
  exact ⟨rfl, rfl, rfl, rfl, rfl, rfl⟩

/-- The side and the deviation leave limits whose products stay in 32 bits, and take the add that
was tried out of the range. -/
theorem Limits.deviation {maxError : Int} (hl : Limits point b) (hs : Spaced points)
    (hpoint : points[0]? = some point) (herr : 0 ≤ maxError ∧ maxError < 65536)
    (h : Broken points b.add b.outerMininterval b.outerMaxinterval k q) (hk : k ≤ 512) :
    (point.minp ≤ ((b.narrowSide q).narrowDeviation maxError q).outerMininterval ∧
        ((b.narrowSide q).narrowDeviation maxError q).outerMininterval ≤
          ((b.narrowSide q).narrowDeviation maxError q).outerMaxinterval ∧
        ((b.narrowSide q).narrowDeviation maxError q).outerMaxinterval ≤ point.maxp) ∧
      (0 < point.minp ∧ point.maxp ≤ q.interval + 65535) ∧
      (b.minadd ≤ ((b.narrowSide q).narrowDeviation maxError q).minadd ∧
        ((b.narrowSide q).narrowDeviation maxError q).maxadd ≤ b.maxadd ∧
        (b.add < ((b.narrowSide q).narrowDeviation maxError q).minadd ∨
          ((b.narrowSide q).narrowDeviation maxError q).maxadd < b.add)) ∧
      |((b.narrowSide q).narrowDeviation maxError q).minadd * triangle (k + 1)| < 900000000 ∧
      |((b.narrowSide q).narrowDeviation maxError q).maxadd * triangle (k + 1)| < 900000000 := by
  have hk1 := h.range.1
  obtain ⟨-, ht1, ht2, -⟩ := h.next_eq hs hl.abs_add hk
  obtain ⟨-, hquad, -, -⟩ :=
    (h.fits.reach hs hk1 (le_of_lt h.range.2)).bounds hk1 hl.abs_add
  obtain ⟨houter, hside⟩ := hl.narrowSide hs h hk
  have hadd := hl.add
  have hwin := hs.window point (List.mem_of_getElem? hpoint)
  have hfirst := h.fits 0 point hk1 hpoint
  simp only [Nat.cast_zero, zero_add, quad_one] at hfirst
  have hsameAdd : (b.narrowSide q).add = b.add := by
    unfold Bisect.narrowSide
    dsimp only
    split <;> rfl
  obtain ⟨d1, d2, d3, d4, d5, d6⟩ := narrowDeviation_spec (b := b.narrowSide q)
    (t := triangle (k + 1)) h.nextcount ⟨hk1, hk⟩ herr hsameAdd (by omega) (by omega) ⟨ht1, ht2⟩
    hquad (fun hone => by subst hone; rfl)
  exact ⟨by omega, by omega, by omega, d5, d6⟩

theorem Limits.narrow {maxError : Int} (hl : Limits point b) (hs : Spaced points)
    (hpoint : points[0]? = some point) (herr : 0 ≤ maxError ∧ maxError < 65536)
    (h : Broken points b.add b.outerMininterval b.outerMaxinterval k q) (hk : k ≤ 512) :
    (point.minp ≤ (b.narrow maxError q).outerMininterval ∧
        (b.narrow maxError q).outerMininterval ≤ (b.narrow maxError q).outerMaxinterval ∧
        (b.narrow maxError q).outerMaxinterval ≤ point.maxp) ∧
      b.minadd ≤ (b.narrow maxError q).minadd ∧ (b.narrow maxError q).maxadd ≤ b.maxadd ∧
      (b.add < (b.narrow maxError q).minadd ∨ (b.narrow maxError q).maxadd < b.add) := by
  have hk1 := h.range.1
  obtain ⟨hfactor, ht1, ht2, -⟩ := h.next_eq hs hl.abs_add hk
  obtain ⟨-, -, -, hlin⟩ :=
    (h.fits.reach hs hk1 (le_of_lt h.range.2)).bounds hk1 hl.abs_add
  have hwin' := hs.window q.nextpoint (List.mem_of_getElem? h.nextpoint)
  have hkk : (k : Int) * k ≤ 512 * 512 := mul_le_mul (by omega) (by omega) (by omega) (by omega)
  obtain ⟨houter, hwin, hrange, d5, d6⟩ := hl.deviation hs hpoint herr h hk
  obtain ⟨p1, p2, p3, p4⟩ := narrowPoint_spec (b := (b.narrowSide q).narrowDeviation maxError q)
    (v := q.interval) h.nextcount ⟨hk1, hk⟩ hfactor ⟨ht1, by omega⟩ hlin (by omega)
    ⟨hwin'.1, hwin'.2.1, hwin'.2.2.1⟩ d5 d6
  unfold Bisect.narrow
  omega

end Round

/-! ## The outer loop -/

/-- The sequences a search remembers fit the points. -/
structure Kept (points : List Points) (b : Bisect) : Prop where
  best : ∃ n : Nat, b.bestcount = n ∧ 1 ≤ n ∧ n ≤ points.length ∧
    Fits points b.bestinterval b.bestadd n ∧ b.bestreach = quad b.bestinterval b.bestadd n
  bestadd : -32768 ≤ b.bestadd ∧ b.bestadd ≤ 32767
  zero : b.zerocount = 0 ∨ ∃ n : Nat, b.zerocount = n ∧ 1 ≤ n ∧ n ≤ points.length ∧
    Fits points b.zerointerval 0 n

theorem Kept.choose {points : List Points} {b : Bisect} (h : Kept points b) :
    FitMove points b.choose := by
  obtain ⟨n, hcount, hn, hlen, hfits, -⟩ := h.best
  unfold Bisect.choose
  split
  · rename_i hsimilar
    rcases h.zero with hzero | ⟨m, hm, hm1, hm2, hmfits⟩
    · rw [hzero] at hsimilar
      omega
    · exact ⟨⟨m, hm, hm1, hm2, hmfits⟩, by simp⟩
  · exact ⟨⟨n, hcount, hn, hlen, hfits⟩, h.bestadd⟩

/-- What a search has remembered before a round: nothing, or sequences of at most
512 steps that fit. -/
def Remembered (points : List Points) (b : Bisect) : Prop :=
  (b.bestreach = -0x80000000 ∧ b.zerocount = 0) ∨ (Kept points b ∧ b.bestcount ≤ 512)

section Loop

variable {points : List Points} {point : Points} {b : Bisect} {q : Sequence} {k : Nat}

/-- The best sequence after a round fits, and a sequence of more than 512 steps
is always a new best one. -/
theorem Remembered.keep (hr : Remembered points b) (hl : Limits point b) (hs : Spaced points)
    (h : Broken points b.add b.outerMininterval b.outerMaxinterval k q) :
    Kept points (if b.isBest q then b.keepBest q else b) ∧
      ((if b.isBest q then b.keepBest q else b).bestcount ≤ 512 ∨
        (b.isBest q = true ∧ 512 < k)) := by
  have hk1 := h.range.1
  have hreach := h.reach_eq hs rfl hl.abs_add
  have htotal := (h.fits.reach hs hk1 (le_of_lt h.range.2)).total
  have hcount : q.nextcount - 1 = k := by rw [h.nextcount]; omega
  have hadd := hl.add
  by_cases hbest : b.isBest q = true
  · rw [if_pos hbest]
    refine ⟨⟨⟨k, hcount, hk1, le_of_lt h.range.2, h.fits, hreach⟩, by
      simp only [Bisect.keepBest]; omega, ?_⟩, ?_⟩
    · simp only [Bisect.keepBest]
      by_cases hzero : b.add = 0
      · right
        have hfits := h.fits
        rw [hzero] at hfits
        simp only [hzero, if_true]
        exact ⟨k, hcount, hk1, le_of_lt h.range.2, hfits⟩
      · simp only [hzero, if_false]
        rcases hr with ⟨-, hzero'⟩ | ⟨hkept, -⟩
        · exact .inl hzero'
        · exact hkept.zero
    · by_cases hk : k ≤ 512
      · left
        simp only [Bisect.keepBest, hcount]
        omega
      · exact .inr ⟨hbest, by omega⟩
  · rw [if_neg hbest]
    have hnot : b.reach q ≤ b.bestreach := by
      unfold Bisect.isBest at hbest
      simp only [Bool.or_eq_true, decide_eq_true_eq, not_or] at hbest
      omega
    rcases hr with ⟨hstart, -⟩ | ⟨hkept, hle⟩
    · rw [hreach, hstart] at hnot
      omega
    · exact ⟨hkept, .inl hle⟩

/-- When the best sequence is not replaced it is at least as long in time, so the
round tried at most 512 steps. -/
theorem Remembered.count_le (hr : Remembered points b) (hl : Limits point b) (hs : Spaced points)
    (h : Broken points b.add b.outerMininterval b.outerMaxinterval k q)
    (hbest : b.isBest q = false) : k ≤ 512 := by
  by_contra hk
  have hreach := h.reach_eq hs rfl hl.abs_add
  have htotal := (h.fits.reach hs h.range.1 (le_of_lt h.range.2)).total
  unfold Bisect.isBest at hbest
  simp only [Bool.or_eq_false_iff, decide_eq_false_iff_not] at hbest
  rcases hr with ⟨hstart, -⟩ | ⟨hkept, hle⟩
  · omega
  · obtain ⟨n, hcount, hn1, hn2, hfits, hbestreach⟩ := hkept.best
    obtain ⟨m, rfl⟩ : ∃ m, n = m + 1 := ⟨n - 1, by omega⟩
    obtain ⟨j, rfl⟩ : ∃ j, k = j + 1 := ⟨k - 1, by omega⟩
    have hlt := h.range.2
    have hp := List.getElem?_eq_getElem (l := points) (i := m) (by omega)
    have hq := List.getElem?_eq_getElem (l := points) (i := j) (by omega)
    have h1 := hfits m _ (by omega) hp
    have h2 := h.fits j _ (by omega) hq
    have h3 := hs.lt (show m < j by omega) hp hq
    have hcast1 : ((m + 1 : Nat) : Int) = (m : Int) + 1 := by omega
    have hcast2 : ((j + 1 : Nat) : Int) = (j : Int) + 1 := by omega
    rw [hcast1] at hbestreach
    rw [hcast2] at hreach
    omega

/-- What a round knows of the sequence that broke: it was a new best one of more than 512 steps, or
the search goes on with less of the range of add. -/
structure Tried (points : List Points) (point : Points) (maxError : Int) (b : Bisect)
    (q : Sequence) (k : Nat) : Prop where
  broken : Broken points b.add b.outerMininterval b.outerMaxinterval k q
  kept : Kept points b
  limits : Limits point b
  count_le : k ≤ 512
  narrow : Kept points (b.narrow maxError q) ∧ (b.narrow maxError q).bestcount ≤ 512
  next : ¬ (b.narrow maxError q).minadd > (b.narrow maxError q).maxadd →
    Limits point (b.narrow maxError q).bisectAdd ∧
      Remembered points (b.narrow maxError q).bisectAdd ∧
      (b.narrow maxError q).bisectAdd.maxadd - (b.narrow maxError q).bisectAdd.minadd <
        b.maxadd - b.minadd

theorem Limits.fits_first (hl : Limits point b) (hpoint : points[0]? = some point) (i : Int)
    (hi1 : b.outerMininterval ≤ i) (hi2 : i ≤ b.outerMaxinterval) : Fits points i b.add 1 := by
  intro j p hj hp
  have hj0 : j = 0 := by omega
  subst hj0
  rw [hpoint, Option.some.injEq] at hp
  subst hp
  have := hl.outer
  simp only [Nat.cast_zero, zero_add, quad_one]
  omega

/-- A round covers all points, or breaks and goes on from there. -/
theorem Remembered.round {maxError : Int} {rest : List Points} (hr : Remembered points b)
    (hl : Limits point b) (hs : Spaced points) (hpoints : points = point :: rest)
    (herr : 0 ≤ maxError ∧ maxError < 65536) :
    (∃ i, findSequence b.add rest 1 b.outerMininterval b.outerMaxinterval b.outerMaxinterval =
        .inl { interval := i, count := points.length, add := b.add } ∧
        Fits points i b.add points.length) ∨
      ∃ q k, findSequence b.add rest 1 b.outerMininterval b.outerMaxinterval
          b.outerMaxinterval = .inr q ∧
        Broken points b.add b.outerMininterval b.outerMaxinterval k q ∧
        Kept points (if b.isBest q then b.keepBest q else b) ∧
        (b.isBest q = true ∧ 512 < k ∨
          Tried points point maxError (if b.isBest q then b.keepBest q else b) q k ∧
            (if b.isBest q then b.keepBest q else b).maxadd -
                (if b.isBest q then b.keepBest q else b).minadd = b.maxadd - b.minadd) := by
  have hpoint : points[0]? = some point := by rw [hpoints]; rfl
  rcases findSequence_spec hs hl.abs_add rest 1 b.outerMininterval b.outerMaxinterval
    (by rw [hpoints]; rfl) (le_refl _) (by rw [hpoints]; simp) (le_refl _) hl.outer.2.1 (le_refl _)
    (hl.fits_first hpoint) with ⟨i, hall, hfits⟩ | ⟨q, k, hsome, hbroken⟩
  · rw [Nat.cast_one] at hall
    exact .inl ⟨i, hall, hfits⟩
  rw [Nat.cast_one] at hsome
  obtain ⟨hkept, hcount⟩ := hr.keep hl hs hbroken
  refine .inr ⟨q, k, hsome, hbroken, hkept, ?_⟩
  by_cases hlong : b.isBest q = true ∧ 512 < k
  · exact .inl hlong
  right
  have hk : k ≤ 512 := by
    cases hbest : b.isBest q with
    | false => exact hr.count_le hl hs hbroken hbest
    | true =>
      by_contra hgt
      exact hlong ⟨hbest, by omega⟩
  generalize hb' : (if b.isBest q = true then b.keepBest q else b) = b' at hkept hcount ⊢
  have hle : b'.bestcount ≤ 512 := hcount.resolve_right hlong
  have hl' : Limits point b' := by
    rw [← hb']
    split
    · exact ⟨hl.outer, hl.add⟩
    · exact hl
  have hbroken' : Broken points b'.add b'.outerMininterval b'.outerMaxinterval k q := by
    rw [← hb']
    split
    · exact hbroken
    · exact hbroken
  have hwidth : b'.maxadd - b'.minadd = b.maxadd - b.minadd := by
    rw [← hb']
    split
    · rfl
    · rfl
  obtain ⟨houter, hmin, hmax, hside⟩ := hl'.narrow hs hpoint herr hbroken' hk
  have hsame : Kept points (b'.narrow maxError q) ∧ (b'.narrow maxError q).bestcount ≤ 512 := by
    obtain ⟨h1, h2, h3, h4, h5, h6⟩ := Bisect.narrow_best maxError b' q
    exact ⟨⟨by rw [h1, h2, h3, h4]; exact hkept.best, by rw [h3]; exact hkept.bestadd,
      by rw [h5, h6]; exact hkept.zero⟩, by rw [h2]; exact hle⟩
  have hadd := hl'.add
  refine ⟨⟨hbroken', hkept, hl', hk, hsame, fun hrange => ⟨⟨houter, ?_⟩, ?_, ?_⟩⟩, hwidth⟩
  · simp only [Bisect.bisectAdd]
    rw [i32_of_range (x := (b'.narrow maxError q).maxadd - (b'.narrow maxError q).minadd)
        (by omega) (by omega), Int.tdiv_eq_ediv_of_nonneg (by omega),
      i32_of_range (by omega) (by omega)]
    omega
  · exact .inr ⟨⟨hsame.1.best, hsame.1.bestadd, hsame.1.zero⟩, hsame.2⟩
  · simp only [Bisect.bisectAdd]
    omega

/-- The search ends within as many rounds as there are adds to try, with a move
that fits. -/
theorem bisectLoop_spec {maxError : Int} {rest : List Points} (hs : Spaced points)
    (hpoints : points = point :: rest) (herr : 0 ≤ maxError ∧ maxError < 65536) :
    ∀ (rounds : Nat) (b : Bisect), b.maxadd - b.minadd < rounds → Limits point b →
      Remembered points b →
      ∃ move, bisectLoop maxError rest rounds b = some move ∧ FitMove points move := by
  intro rounds
  induction rounds with
  | zero =>
    intro b hwidth hl
    have := hl.add
    omega
  | succ rounds ih =>
    intro b hwidth hl hr
    rcases hr.round hl hs hpoints herr with ⟨i, hall, hfits⟩ | ⟨q, k, hsome, hbroken, hkept, hnext⟩
    · refine ⟨_, by simp only [bisectLoop]; rw [hall], ?_⟩
      have hadd := hl.add
      exact ⟨⟨points.length, rfl, by rw [hpoints]; simp, le_refl _, hfits⟩, by simp only; omega⟩
    · have hcount : q.nextcount - 1 = k := by rw [hbroken.nextcount]; omega
      simp only [bisectLoop, hsome]
      generalize (if b.isBest q = true then b.keepBest q else b) = b' at hkept hnext ⊢
      split
      · exact ⟨_, rfl, hkept.choose⟩
      rename_i hgo
      simp only [hcount, Bool.and_eq_true, decide_eq_true_eq, not_and] at hgo
      rcases hnext with ⟨hbest, hlong⟩ | ⟨htried, hsame⟩
      · have := hgo hbest
        omega
      split
      · exact ⟨_, rfl, htried.narrow.1.choose⟩
      · rename_i hrange
        obtain ⟨hl', hr', hless⟩ := htried.next hrange
        exact ih _ (by omega) hl' hr'

end Loop

theorem compressBisectAdd_spec {sc : StepCompress} {points : List Points}
    (hpoints : (List.range (min sc.queue.length 65535)).map (minmaxPoint sc) = points)
    (hs : Spaced points) (hne : points ≠ []) (herr : 0 ≤ sc.maxError ∧ sc.maxError < 65536) :
    ∃ move, compressBisectAdd sc = some move ∧ FitMove points move := by
  unfold compressBisectAdd
  rw [hpoints]
  cases points with
  | nil => exact absurd rfl hne
  | cons point rest =>
    have hwin := hs.window point (by simp)
    exact bisectLoop_spec hs rfl herr 0x10000 (.init point) (by simp [Bisect.init])
      ⟨by simp only [Bisect.init]; omega, by simp [Bisect.init]⟩ (.inl ⟨rfl, rfl⟩)

end FlsunT1.Chelper
