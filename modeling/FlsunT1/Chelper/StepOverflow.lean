/-
  Chelper/StepOverflow.lean --- the signed arithmetic of the search for a move.

  For each function of stepcompress.c that computes on `int32_t` there is the list of the signed
  values that it forms: sums, differences and products of operands as the code has them, before
  they are brought into 32 bits.  A quotient is no larger than its dividend and is left out.
-/
import FlsunT1.Chelper.StepStream

set_option autoImplicit false

namespace FlsunT1.Chelper

open FlsunT1.Library

/-! ## The values that are formed -/

/-- The value is an `int32_t`. -/
def InInt32 (x : Int) : Prop := -2147483648 ≤ x ∧ x < 2147483648

/-- `idiv_up`, with `DIV_ROUND_UP` -/
def idivUpExprs (n d : Int) : List Int := if 0 ≤ n then [n + d, i32 (n + d) - 1] else []

/-- `idiv_down` -/
def idivDownExprs (n d : Int) : List Int := if 0 ≤ n then [] else [n - d, i32 (n - d) + 1]

/-- `nextcount*(nextcount-1)/2` -/
def factorExprs (nextcount : Int) : List Int := [nextcount - 1, nextcount * (nextcount - 1)]

/-- The inner loop of `compress_bisect_add`, as `findSequence`. -/
def findSequenceExprs (add : Int) : List Points → Int → Int → Int → List Int
  | [], count, _, _ => [count + 1, count + 1 - 1]
  | nextpoint :: rest, count, nextmininterval, nextmaxinterval =>
      let nextcount := count + 1
      let nextaddfactor := (i32 (nextcount * (nextcount - 1))).tdiv 2
      let c := i32 (add * nextaddfactor)
      let minp := i32 (nextpoint.minp - c)
      let maxp := i32 (nextpoint.maxp - c)
      let nextmin :=
        if i32 (nextmininterval * nextcount) < minp then idivUp minp nextcount else nextmininterval
      let nextmax :=
        if i32 (nextmaxinterval * nextcount) > maxp then idivDown maxp nextcount
        else nextmaxinterval
      nextcount :: factorExprs nextcount ++
        [add * nextaddfactor, nextmininterval * nextcount, nextpoint.minp - c] ++
        (if i32 (nextmininterval * nextcount) < minp then idivUpExprs minp nextcount else []) ++
        [nextmaxinterval * nextcount, nextpoint.maxp - c] ++
        (if i32 (nextmaxinterval * nextcount) > maxp then idivDownExprs maxp nextcount else []) ++
        if nextmin > nextmax then [] else findSequenceExprs add rest nextcount nextmin nextmax

namespace Bisect

/-- `reach`, in which `n` is the number of steps -/
def reachExprs (add interval n : Int) : List Int :=
  let addfactor := (i32 (n * (n - 1))).tdiv 2
  factorExprs n ++
    [add * addfactor, interval * n, i32 (add * addfactor) + i32 (interval * n)]

/-- `narrowSide` -/
def narrowSideExprs (b : Bisect) (q : Sequence) : List Int :=
  let nextaddfactor := (i32 (q.nextcount * (q.nextcount - 1))).tdiv 2
  let nextreach := i32 (b.add * nextaddfactor + q.interval * q.nextcount)
  reachExprs b.add q.interval q.nextcount ++
    if nextreach < q.nextpoint.minp then [b.add + 1] else [b.add - 1]

/-- `narrowDeviation`; `max_error*QUADRATIC_DEV` is unsigned. -/
def narrowDeviationExprs (maxError : Int) (b : Bisect) (q : Sequence) : List Int :=
  let count := q.nextcount - 1
  if count > 1 then
    let errdelta := i32 (u32 (maxError * quadraticDev) / u32 (i32 (count * count)))
    [count * count, b.add - errdelta, b.add + errdelta]
  else []

/-- `narrowPoint` -/
def narrowPointExprs (b : Bisect) (q : Sequence) : List Int :=
  let nextaddfactor := (i32 (q.nextcount * (q.nextcount - 1))).tdiv 2
  let c := i32 (b.outerMaxinterval * q.nextcount)
  let c' := i32 (b.outerMininterval * q.nextcount)
  let minp := i32 (q.nextpoint.minp - c)
  let maxp := i32 (q.nextpoint.maxp - c')
  [b.outerMaxinterval * q.nextcount, b.minadd * nextaddfactor, q.nextpoint.minp - c] ++
    (if i32 (b.minadd * nextaddfactor) < minp then idivUpExprs minp nextaddfactor else []) ++
    [b.outerMininterval * q.nextcount, b.maxadd * nextaddfactor, q.nextpoint.maxp - c'] ++
    if i32 (b.maxadd * nextaddfactor) > maxp then idivDownExprs maxp nextaddfactor else []

/-- `narrow` -/
def narrowExprs (maxError : Int) (b : Bisect) (q : Sequence) : List Int :=
  b.narrowSideExprs q ++ (b.narrowSide q).narrowDeviationExprs maxError q ++
    ((b.narrowSide q).narrowDeviation maxError q).narrowPointExprs q

/-- `bisectAdd` -/
def bisectAddExprs (b : Bisect) : List Int :=
  [b.maxadd - b.minadd, b.maxadd - (i32 (b.maxadd - b.minadd)).tdiv 4]

/-- `choose` -/
def chooseExprs (b : Bisect) : List Int := [b.zerocount + b.zerocount / 16]

end Bisect

/-- The outer loop of `compress_bisect_add`, as `bisectLoop`. -/
def bisectLoopExprs (maxError : Int) (rest : List Points) : Nat → Bisect → List Int
  | 0, _ => []
  | rounds + 1, b =>
      findSequenceExprs b.add rest 1 b.outerMininterval b.outerMaxinterval ++
        match findSequence b.add rest 1 b.outerMininterval b.outerMaxinterval
          b.outerMaxinterval with
        | .inl _ => []
        | .inr q =>
            let best := b.isBest q
            let b' := if best then b.keepBest q else b
            [q.nextcount - 1] ++ Bisect.reachExprs b.add q.interval (q.nextcount - 1) ++
              if best && decide (q.nextcount - 1 > 0x200) then b'.chooseExprs
              else
                b'.narrowExprs maxError q ++
                  let b'' := b'.narrow maxError q
                  if b''.minadd > b''.maxadd then b''.chooseExprs
                  else b''.bisectAddExprs ++ bisectLoopExprs maxError rest rounds b''.bisectAdd

/-- The points that `compress_bisect_add` goes through. -/
def searchPoints (sc : StepCompress) : List Points :=
  (List.range (min sc.queue.length 65535)).map (minmaxPoint sc)

/-- `compress_bisect_add` -/
def compressBisectAddExprs (sc : StepCompress) : List Int :=
  match searchPoints sc with
  | [] => []
  | point :: rest => bisectLoopExprs sc.maxError rest 0x10000 (.init point)

/-- `add_move`; the other operations of `ticks` are unsigned. -/
def addMoveExprs (move : StepMove) : List Int :=
  let addfactor := (i32 (move.count * (move.count - 1))).tdiv 2
  factorExprs move.count ++ [move.add * addfactor]

/-! ## Values in range -/

/-- No value of the list overflows. -/
def Signed (l : List Int) : Prop := ∀ x ∈ l, InInt32 x

@[simp] theorem signed_nil : Signed [] := by
  intro x hx
  cases hx

@[simp] theorem signed_cons {x : Int} {l : List Int} :
    Signed (x :: l) ↔ InInt32 x ∧ Signed l := List.forall_mem_cons

@[simp] theorem signed_append {l l' : List Int} :
    Signed (l ++ l') ↔ Signed l ∧ Signed l' := List.forall_mem_append

theorem signed_ite {p : Prop} [Decidable p] {l l' : List Int} (h : p → Signed l)
    (h' : ¬ p → Signed l') : Signed (if p then l else l') := by
  split
  · rename_i hp
    exact h hp
  · rename_i hp
    exact h' hp

theorem inInt32_i32 (x : Int) : InInt32 (i32 x) := by
  unfold InInt32 i32; omega

theorem signed_idivUpExprs {n d : Int} (hd : 0 < d) (h : n + d < 2147483648) :
    Signed (idivUpExprs n d) := by
  unfold idivUpExprs
  apply signed_ite
  · intro hn
    have hsum : i32 (n + d) = n + d := i32_of_range (by omega) h
    rw [hsum]
    simp only [signed_cons, signed_nil, and_true]
    unfold InInt32
    omega
  · exact fun _ => signed_nil

theorem signed_idivDownExprs {n d : Int} (hd : 0 < d) (h : -2147483648 ≤ n - d) :
    Signed (idivDownExprs n d) := by
  unfold idivDownExprs
  apply signed_ite
  · exact fun _ => signed_nil
  · intro hn
    have hdiff : i32 (n - d) = n - d := i32_of_range h (by omega)
    rw [hdiff]
    simp only [signed_cons, signed_nil, and_true]
    unfold InInt32
    omega

theorem signed_factorExprs {n : Int} (h0 : 1 ≤ n) (h1 : n ≤ 46341) : Signed (factorExprs n) := by
  have hle : n * (n - 1) ≤ 46341 * 46340 := mul_le_mul h1 (by omega) (by omega) (by omega)
  have hpos : 0 ≤ n * (n - 1) := mul_nonneg (by omega) (by omega)
  unfold factorExprs
  simp only [signed_cons, signed_nil, and_true]
  unfold InInt32
  omega

theorem factor_eq {n : Int} (h0 : 1 ≤ n) (h1 : n ≤ 46341) :
    (i32 (n * (n - 1))).tdiv 2 = triangle n := by
  have hle : n * (n - 1) ≤ 46341 * 46340 := mul_le_mul h1 (by omega) (by omega) (by omega)
  have hpos : 0 ≤ n * (n - 1) := mul_nonneg (by omega) (by omega)
  rw [i32_of_range (by omega) (by omega), Int.tdiv_eq_ediv_of_nonneg hpos]
  rfl

theorem not_inInt32_factor : ¬ InInt32 (46342 * (46342 - 1)) := by
  unfold InInt32
  omega

/-! ## Long moves -/

/-- A constant interval fits so many steps that the product of their number and the next one
overflows, and there is a next one. -/
def LongFit (points : List Points) : Prop :=
  46342 ≤ points.length ∧ ∃ v, Fits points v 0 46341

theorem Fits.short {points : List Points} {v a : Int} {k : Nat} (h : Fits points v a k)
    (hs : Spaced points) (hlen : k ≤ points.length) (ha : |a| ≤ 32768)
    (hshort : ¬ LongFit points) : k ≤ 46341 ∧ (k < points.length → k ≤ 46340) := by
  have hno : ¬ (46341 ≤ k ∧ 46342 ≤ points.length) := by
    rintro ⟨hk, hlong⟩
    have hfits := h.mono hk
    rcases eq_or_ne a 0 with rfl | hne
    · exact hshort ⟨hlong, v, hfits⟩
    · have hreach := hfits.reach hs (by omega) (by omega)
      obtain ⟨htri, -⟩ := hreach.bounds (by omega) ha
      have hvalue : triangle ((46341 : Nat) : Int) = 1073720970 := rfl
      have habs : 1 ≤ |a| := Int.one_le_abs hne
      rw [hvalue] at htri
      unfold clockDiffMax at htri
      omega
  omega

/-! ## The inner loop -/

/-- Without a long fit the inner loop stays in 32 bits. -/
theorem signed_findSequenceExprs {points : List Points} {a : Int} (hs : Spaced points)
    (ha : |a| ≤ 32768) (hshort : ¬ LongFit points) :
    ∀ (rest : List Points) (k : Nat) (lo hi : Int), rest = points.drop k → 1 ≤ k →
      k ≤ points.length → lo ≤ hi → (∀ i, lo ≤ i → i ≤ hi → Fits points i a k) →
      Signed (findSequenceExprs a rest k lo hi) := by
  intro rest
  induction rest with
  | nil =>
    intro k lo hi hrest hk hlen hlohi hfits
    have hcount := ((hfits lo (le_refl _) hlohi).short hs hlen ha hshort).1
    simp only [findSequenceExprs, signed_cons, signed_nil, and_true]
    unfold InInt32
    omega
  | cons nextpoint rest ih =>
    intro k lo hi hrest hk hlen hlohi hfits
    have hklt : k < points.length := by
      by_contra hge
      rw [List.drop_eq_nil_of_le (by omega)] at hrest
      cases hrest
    rw [List.drop_eq_getElem_cons hklt] at hrest
    simp only [List.cons.injEq] at hrest
    have hpoint : points[k]? = some nextpoint := by
      rw [List.getElem?_eq_getElem hklt, hrest.1]
    have hcount := ((hfits lo (le_refl _) hlohi).short hs hlen ha hshort).2 hklt
    have hwin := hs.window nextpoint (List.mem_of_getElem? hpoint)
    obtain ⟨hc, hc', hlo, hhi, hlower, hupper⟩ :=
      findSequence_next hs ha hk hpoint hlohi hfits
    unfold clockDiffMax at hwin
    unfold quadMax at hc'
    unfold linearMax at hlo hhi
    have hminp : i32 (nextpoint.minp - a * triangle ((k : Int) + 1)) =
        nextpoint.minp - a * triangle ((k : Int) + 1) := i32_of_range (by omega) (by omega)
    have hmaxp : i32 (nextpoint.maxp - a * triangle ((k : Int) + 1)) =
        nextpoint.maxp - a * triangle ((k : Int) + 1) := i32_of_range (by omega) (by omega)
    have hfactor := factor_eq (n := (k : Int) + 1) (by omega) (by omega)
    simp only [findSequenceExprs, hfactor]
    rw [hfactor] at hc
    simp only [hc]
    generalize (if i32 (lo * ((k : Int) + 1)) <
        i32 (nextpoint.minp - a * triangle ((k : Int) + 1)) then
        idivUp (i32 (nextpoint.minp - a * triangle ((k : Int) + 1))) ((k : Int) + 1)
      else lo) = nextmin at hlower ⊢
    generalize (if i32 (hi * ((k : Int) + 1)) >
        i32 (nextpoint.maxp - a * triangle ((k : Int) + 1)) then
        idivDown (i32 (nextpoint.maxp - a * triangle ((k : Int) + 1))) ((k : Int) + 1)
      else hi) = nextmax at hupper ⊢
    rw [hminp, hmaxp]
    simp only [signed_append, signed_cons, signed_nil, and_true]
    refine ⟨⟨⟨⟨⟨⟨?_, signed_factorExprs (by omega) (by omega)⟩, ?_, ?_, ?_⟩, ?_⟩, ?_, ?_⟩, ?_⟩, ?_⟩
    · unfold InInt32
      omega
    · unfold InInt32
      omega
    · unfold InInt32
      omega
    · unfold InInt32
      omega
    · exact signed_ite (fun _ => signed_idivUpExprs (by omega) (by omega)) fun _ => signed_nil
    · unfold InInt32
      omega
    · unfold InInt32
      omega
    · exact signed_ite (fun _ => signed_idivDownExprs (by omega) (by omega)) fun _ => signed_nil
    · apply signed_ite (fun _ => signed_nil)
      intro hle
      have hcast : ((k + 1 : Nat) : Int) = (k : Int) + 1 := by omega
      have hnext := ih (k + 1) nextmin nextmax hrest.2 (by omega) (by omega) (by omega)
        (Fits.next hpoint hfits hlower hupper)
      rw [hcast] at hnext
      exact hnext

/-- With a long fit it does not. -/
theorem not_signed_findSequenceExprs {points : List Points} {v : Int} (hs : Spaced points)
    (hlong : 46342 ≤ points.length) (hv : Fits points v 0 46341) :
    ∀ (rest : List Points) (k : Nat) (lo hi : Int), rest = points.drop k → 1 ≤ k → k ≤ 46341 →
      lo ≤ v → v ≤ hi → (∀ i, lo ≤ i → i ≤ hi → Fits points i 0 k) →
      ¬ Signed (findSequenceExprs 0 rest k lo hi) := by
  intro rest
  induction rest with
  | nil =>
    intro k lo hi hrest _ hk
    have := List.drop_eq_nil_iff.mp hrest.symm
    omega
  | cons nextpoint rest ih =>
    intro k lo hi hrest hk hle hlo hhi hfits hsigned
    have hklt : k < points.length := by omega
    rw [List.drop_eq_getElem_cons hklt] at hrest
    simp only [List.cons.injEq] at hrest
    have hpoint : points[k]? = some nextpoint := by
      rw [List.getElem?_eq_getElem hklt, hrest.1]
    obtain ⟨hc, -, -, -, hlower, hupper⟩ :=
      findSequence_next hs (a := 0) (by simp) hk hpoint (by omega) hfits
    simp only [findSequenceExprs, hc, signed_append, signed_cons] at hsigned
    rcases Nat.lt_or_ge k 46341 with hlt | hge
    · -- the interval stays between the limits
      have hnext := (Fits.succ_iff hpoint).mp (hv.mono (show k + 1 ≤ 46341 by omega))
      have hmin := (hlower v).mpr ⟨hlo, by have := hnext.2.1; unfold quad at this; omega⟩
      have hmax := (hupper v).mpr ⟨hhi, by have := hnext.2.2; unfold quad at this; omega⟩
      have hcast : ((k + 1 : Nat) : Int) = (k : Int) + 1 := by omega
      have hrec := ih (k + 1) _ _ hrest.2 (by omega) (by omega) hmin hmax
        (Fits.next hpoint hfits hlower hupper)
      rw [hcast] at hrec
      apply hrec
      have hlast := hsigned.2
      rw [if_neg (by omega)] at hlast
      exact hlast
    · have heq : k = 46341 := by omega
      subst heq
      have hfactor : Signed (factorExprs (((46341 : Nat) : Int) + 1)) := hsigned.1.1.1.1.1.2
      exact not_inInt32_factor (hfactor _ (by simp [factorExprs]))

/-! ## A round of the outer loop -/

theorem inInt32_of_abs_lt {x : Int} (h : |x| < 2147483648) : InInt32 x := by
  rw [abs_lt] at h
  unfold InInt32
  omega

theorem signed_reachExprs {v a n : Int} (h0 : 1 ≤ n) (h1 : n ≤ 46341)
    (ha : |a| * triangle n < quadMax) (hv : InInt32 (v * n)) (hquad : InInt32 (quad v a n)) :
    Signed (Bisect.reachExprs a v n) := by
  have hproduct : InInt32 (a * triangle n) := by
    apply inInt32_of_abs_lt
    rw [abs_mul, abs_of_nonneg (triangle_nonneg h0)]
    unfold quadMax at ha
    omega
  unfold Bisect.reachExprs
  rw [factor_eq h0 h1]
  dsimp only
  rw [i32_of_range hproduct.1 hproduct.2, i32_of_range hv.1 hv.2]
  simp only [signed_append, signed_cons, signed_nil, and_true]
  exact ⟨signed_factorExprs h0 h1, hproduct, hv, hquad⟩

section Round

variable {points : List Points} {point : Points} {b : Bisect} {q : Sequence} {k : Nat}
  {maxError a lo hi : Int}

theorem Broken.signed_reach (h : Broken points a lo hi k q) (hs : Spaced points)
    (ha : |a| ≤ 32768) (hshort : ¬ LongFit points) :
    Signed (Bisect.reachExprs a q.interval k) := by
  have hk := h.range.1
  have hreach := h.fits.reach hs hk h.range.2.le
  have hcount := (h.fits.short hs h.range.2.le ha hshort).1
  obtain ⟨htri, -, hlin0, hlin1⟩ := hreach.bounds hk ha
  have hfirst := hreach.first
  have htotal := hreach.total
  have hexp : q.interval * ((k : Int) + 1) = q.interval * k + q.interval := by ring
  have hpos : 0 ≤ q.interval * (k : Int) := mul_nonneg hfirst.le (by omega)
  unfold clockDiffMax at htri htotal
  unfold linearMax at hlin1
  apply signed_reachExprs (by omega) (by omega)
  · unfold quadMax
    omega
  · unfold InInt32
    omega
  · unfold InInt32
    omega

/-- The side on which it misses the next point. -/
theorem Tried.signed_side (h : Tried points point maxError b q k) (hs : Spaced points) :
    Signed (b.narrowSideExprs q) := by
  have hk := h.broken.range.1
  have hle := h.count_le
  have habs := h.limits.abs_add
  have hadd := h.limits.add
  obtain ⟨-, -, -, hnext⟩ := h.broken.next_eq hs habs hle
  obtain ⟨-, hquad, hlin0, hlin1⟩ := (h.broken.fits.reach hs hk h.broken.range.2.le).bounds hk habs
  unfold Bisect.narrowSideExprs
  rw [signed_append]
  constructor
  · rw [h.broken.nextcount] at hnext ⊢
    apply signed_reachExprs (by omega) (by omega) hquad
    · unfold linearMax at hlin1
      unfold InInt32
      omega
    · rw [← hnext]
      exact inInt32_i32 _
  · apply signed_ite
    · intro _
      simp only [signed_cons, signed_nil, and_true]
      unfold InInt32
      omega
    · intro _
      simp only [signed_cons, signed_nil, and_true]
      unfold InInt32
      omega

/-- The limits from the deviation. -/
theorem signed_narrowDeviationExprs (hq : q.nextcount = k + 1) (hk : k ≤ 512)
    (herr : 0 ≤ maxError ∧ maxError < 65536) (hadd : -32768 ≤ b.add ∧ b.add ≤ 32767) :
    Signed (b.narrowDeviationExprs maxError q) := by
  have hkk : (k : Int) * k ≤ 512 * 512 := mul_le_mul (by omega) (by omega) (by omega) (by omega)
  unfold Bisect.narrowDeviationExprs
  simp only [hq, add_sub_cancel_right]
  apply signed_ite (fun hk2 => ?_) fun _ => signed_nil
  have hkk0 : 0 < (k : Int) * k := mul_pos (by omega) (by omega)
  have hdelta0 : 0 ≤ maxError * quadraticDev / (k * k) :=
    Int.ediv_nonneg (mul_nonneg herr.1 (by decide)) hkk0.le
  have hdelta1 : maxError * quadraticDev / (k * k) ≤ maxError * quadraticDev :=
    Int.ediv_le_self _ (mul_nonneg herr.1 (by decide))
  have hsmall : maxError * quadraticDev ≤ 720885 := by
    unfold quadraticDev
    omega
  have hlarge : 0 ≤ maxError * quadraticDev := mul_nonneg herr.1 (by decide)
  rw [u32_of_range hlarge (by omega), i32_of_range (x := (k : Int) * k) (by omega) (by omega),
    u32_of_range hkk0.le (by omega), i32_of_range (by omega) (by omega)]
  simp only [signed_cons, signed_nil, and_true]
  unfold InInt32
  omega

/-- The limits from the next point. -/
theorem signed_narrowPointExprs {t v : Int} (hq : q.nextcount = k + 1) (hk : 1 ≤ k ∧ k ≤ 512)
    (hfactor : (i32 (q.nextcount * (q.nextcount - 1))).tdiv 2 = t) (ht : 1 ≤ t ∧ t ≤ 262144)
    (hv : v * (k + 1) < linearMax)
    (houter : 0 < b.outerMininterval ∧ b.outerMininterval ≤ b.outerMaxinterval ∧
      b.outerMaxinterval ≤ v + 65535)
    (hp : 0 < q.nextpoint.minp ∧ q.nextpoint.minp ≤ q.nextpoint.maxp ∧
      q.nextpoint.maxp < clockDiffMax)
    (hmin : |b.minadd * t| < 900000000) (hmax : |b.maxadd * t| < 900000000) :
    Signed (b.narrowPointExprs q) := by
  obtain ⟨hminc0, hminc, hmaxc⟩ := outer_products hk hv houter
  rw [abs_lt] at hmin hmax
  unfold clockDiffMax at hp
  rw [hq] at hfactor
  unfold Bisect.narrowPointExprs
  simp only [hq, hfactor]
  rw [i32_of_range (x := b.outerMaxinterval * _) (by omega) (by omega),
    i32_of_range (x := b.outerMininterval * _) (by omega) (by omega),
    i32_of_range (x := q.nextpoint.minp - _) (by omega) (by omega),
    i32_of_range (x := q.nextpoint.maxp - _) (by omega) (by omega)]
  simp only [signed_append, signed_cons, signed_nil, and_true]
  refine ⟨⟨⟨⟨?_, ?_, ?_⟩, ?_⟩, ?_, ?_, ?_⟩, ?_⟩
  · unfold InInt32
    omega
  · unfold InInt32
    omega
  · unfold InInt32
    omega
  · exact signed_ite (fun _ => signed_idivUpExprs (by omega) (by omega)) fun _ => signed_nil
  · unfold InInt32
    omega
  · unfold InInt32
    omega
  · unfold InInt32
    omega
  · exact signed_ite (fun _ => signed_idivDownExprs (by omega) (by omega)) fun _ => signed_nil

/-- A round that goes on stays in 32 bits. -/
theorem Tried.signed_narrow (h : Tried points point maxError b q k) (hs : Spaced points)
    (hpoint : points[0]? = some point) (herr : 0 ≤ maxError ∧ maxError < 65536) :
    Signed (b.narrowExprs maxError q) := by
  have hk := h.broken.range.1
  have habs := h.limits.abs_add
  have hadd := h.limits.add
  obtain ⟨hfactor, ht1, ht2, -⟩ := h.broken.next_eq hs habs h.count_le
  obtain ⟨-, -, -, hlin⟩ := (h.broken.fits.reach hs hk h.broken.range.2.le).bounds hk habs
  obtain ⟨houter, hwin, -, hmin, hmax⟩ := h.limits.deviation hs hpoint herr h.broken h.count_le
  have hnext := hs.window q.nextpoint (List.mem_of_getElem? h.broken.nextpoint)
  have hkk : (k : Int) * k ≤ 512 * 512 :=
    mul_le_mul (by have := h.count_le; omega) (by have := h.count_le; omega) (by omega) (by omega)
  have hsame : (b.narrowSide q).add = b.add := by
    unfold Bisect.narrowSide
    dsimp only
    split <;> rfl
  unfold Bisect.narrowExprs
  simp only [signed_append]
  refine ⟨⟨h.signed_side hs, ?_⟩, ?_⟩
  · exact signed_narrowDeviationExprs h.broken.nextcount h.count_le herr (by rw [hsame]; omega)
  · exact signed_narrowPointExprs (v := q.interval) h.broken.nextcount ⟨hk, h.count_le⟩ hfactor
      ⟨ht1, by omega⟩ hlin (by omega) ⟨hnext.1, hnext.2.1, hnext.2.2.1⟩ hmin hmax

theorem Bisect.signed_bisectAdd (hmin : -32768 ≤ b.minadd) (hmax : b.maxadd ≤ 32767)
    (hle : b.minadd ≤ b.maxadd) : Signed b.bisectAddExprs := by
  unfold Bisect.bisectAddExprs
  rw [i32_of_range (by omega) (by omega), Int.tdiv_eq_ediv_of_nonneg (by omega)]
  simp only [signed_cons, signed_nil, and_true]
  unfold InInt32
  omega

theorem Kept.signed_choose (h : Kept points b) (hs : Spaced points) : Signed b.chooseExprs := by
  have hlength := hs.length
  unfold Bisect.chooseExprs
  simp only [signed_cons, signed_nil, and_true]
  unfold InInt32
  rcases h.zero with hzero | ⟨n, hn, hn1, hn2, -⟩
  · omega
  · omega

end Round

/-! ## The search -/

/-- Without a long fit the search stays in 32 bits. -/
theorem signed_bisectLoopExprs {points rest : List Points} {point : Points} {maxError : Int}
    (hs : Spaced points) (hpoints : points = point :: rest)
    (herr : 0 ≤ maxError ∧ maxError < 65536) (hshort : ¬ LongFit points) :
    ∀ (rounds : Nat) (b : Bisect), Limits point b → Remembered points b →
      Signed (bisectLoopExprs maxError rest rounds b) := by
  intro rounds
  have hpoint : points[0]? = some point := by rw [hpoints]; rfl
  induction rounds with
  | zero => exact fun b _ _ => signed_nil
  | succ rounds ih =>
    intro b hl hr
    have hinner := signed_findSequenceExprs hs hl.abs_add hshort rest 1 b.outerMininterval
      b.outerMaxinterval (by rw [hpoints]; rfl) (le_refl _) (by rw [hpoints]; simp) hl.outer.2.1
      (hl.fits_first hpoint)
    rw [Nat.cast_one] at hinner
    simp only [bisectLoopExprs]
    rw [signed_append]
    refine ⟨hinner, ?_⟩
    rcases hr.round hl hs hpoints herr with ⟨i, hall, hfits⟩ | ⟨q, k, hsome, hbroken, hkept, hnext⟩
    · rw [hall]
      exact signed_nil
    have hcount : q.nextcount - 1 = k := by rw [hbroken.nextcount]; omega
    have hlt := hbroken.range.2
    have hlength := hs.length
    rw [hsome]
    dsimp only
    generalize (if b.isBest q = true then b.keepBest q else b) = b' at hkept hnext ⊢
    rw [hcount]
    simp only [signed_append, signed_cons, signed_nil, and_true]
    refine ⟨⟨?_, hbroken.signed_reach hs hl.abs_add hshort⟩, ?_⟩
    · unfold InInt32
      omega
    · apply signed_ite (fun _ => hkept.signed_choose hs)
      intro hgo
      simp only [Bool.and_eq_true, decide_eq_true_eq, not_and] at hgo
      rcases hnext with ⟨hbest, hlong⟩ | ⟨htried, hsame⟩
      · have := hgo hbest
        omega
      rw [signed_append]
      refine ⟨htried.signed_narrow hs hpoint herr, ?_⟩
      apply signed_ite (fun _ => htried.narrow.1.signed_choose hs)
      intro hrange
      obtain ⟨hl', hr', -⟩ := htried.next hrange
      rw [signed_append]
      have hadd := hl'.add
      exact ⟨Bisect.signed_bisectAdd hadd.1 hadd.2.2.2 (hadd.2.1.trans hadd.2.2.1), ih _ hl' hr'⟩

theorem not_signed_bisectLoopExprs {points rest : List Points} {point : Points} {maxError : Int}
    (hs : Spaced points) (hpoints : points = point :: rest) (hl : Limits point (.init point))
    (hlong : LongFit points) (rounds : Nat) :
    ¬ Signed (bisectLoopExprs maxError rest (rounds + 1) (.init point)) := by
  have hpoint : points[0]? = some point := by rw [hpoints]; rfl
  obtain ⟨hlength, v, hv⟩ := hlong
  have hfirst := hv 0 point (by omega) hpoint
  simp only [Nat.cast_zero, zero_add, quad_one] at hfirst
  intro hsigned
  simp only [bisectLoopExprs] at hsigned
  rw [signed_append] at hsigned
  have hinner := not_signed_findSequenceExprs hs hlength hv rest 1 point.minp point.maxp
    (by rw [hpoints]; rfl) (le_refl _) (by omega) hfirst.1 hfirst.2 (hl.fits_first hpoint)
  exact hinner hsigned.1

theorem length_searchPoints (sc : StepCompress) :
    (searchPoints sc).length = min sc.queue.length 65535 := by
  unfold searchPoints
  rw [List.length_map, List.length_range]

section Queue

variable {sc : StepCompress} {ts : List Int}

theorem Queued.searchPoints_ne_nil (h : Queued sc ts) (hne : ts ≠ []) : searchPoints sc ≠ [] := by
  intro hnil
  have hlength := length_searchPoints sc
  rw [hnil, List.length_nil, h.queue, List.length_map] at hlength
  have := List.length_pos_of_ne_nil hne
  omega

theorem Queued.search_init (h : Queued sc ts) (hne : ts ≠ []) :
    ∃ point rest, searchPoints sc = point :: rest ∧ Limits point (.init point) ∧
      compressBisectAddExprs sc = bisectLoopExprs sc.maxError rest 0x10000 (.init point) := by
  obtain ⟨point, rest, hcons⟩ := List.exists_cons_of_ne_nil (h.searchPoints_ne_nil hne)
  have hs : Spaced (searchPoints sc) := h.spaced
  have hwin := hs.window point (by rw [hcons]; exact List.mem_cons_self)
  refine ⟨point, rest, hcons, ⟨?_, ?_⟩, ?_⟩
  · simp only [Bisect.init]
    omega
  · simp [Bisect.init]
  · unfold compressBisectAddExprs
    rw [hcons]

theorem Queued.signed_search (h : Queued sc ts) (hne : ts ≠ [])
    (hshort : ¬ LongFit (searchPoints sc)) : Signed (compressBisectAddExprs sc) := by
  obtain ⟨point, rest, hcons, hl, hexprs⟩ := h.search_init hne
  rw [hexprs]
  exact signed_bisectLoopExprs h.spaced hcons h.maxError hshort _ _ hl (.inl ⟨rfl, rfl⟩)

theorem Queued.not_signed_search (h : Queued sc ts) (hne : ts ≠ [])
    (hlong : LongFit (searchPoints sc)) : ¬ Signed (compressBisectAddExprs sc) := by
  obtain ⟨point, rest, hcons, hl, hexprs⟩ := h.search_init hne
  rw [hexprs]
  exact not_signed_bisectLoopExprs h.spaced hcons hl hlong 0xffff

theorem FitMove.signed_addMove {points : List Points} {move : StepMove} (h : FitMove points move)
    (hs : Spaced points) (hshort : ¬ LongFit points) : Signed (addMoveExprs move) := by
  obtain ⟨n, hn, hn1, hn2, hfits⟩ := h.count
  have habs : |move.add| ≤ 32768 := by
    have := h.add
    rw [abs_le]
    omega
  have hcount := (hfits.short hs hn2 habs hshort).1
  obtain ⟨htri, -⟩ := (hfits.reach hs hn1 hn2).bounds hn1 habs
  unfold addMoveExprs
  rw [hn, factor_eq (by omega) (by omega)]
  simp only [signed_append, signed_cons, signed_nil, and_true]
  refine ⟨signed_factorExprs (by omega) (by omega), ?_⟩
  apply inInt32_of_abs_lt
  rw [abs_mul, abs_of_nonneg (triangle_nonneg (n := (n : Int)) (by omega))]
  unfold clockDiffMax at htri
  omega

/-- The search ends, and it and the command made of its result stay in 32 bits, if and only if no
constant interval fits the first 46341 steps of a longer queue. -/
theorem signed_iff (h : Queued sc ts) (hne : ts ≠ []) :
    (∃ move, compressBisectAdd sc = some move ∧
      ∀ x ∈ compressBisectAddExprs sc ++ addMoveExprs move, InInt32 x) ↔
    ¬ LongFit (searchPoints sc) := by
  constructor
  · rintro ⟨_, _, hsigned⟩ hlong
    apply h.not_signed_search hne hlong
    exact fun x hx => hsigned x (List.mem_append_left _ hx)
  · intro hshort
    obtain ⟨move, hmove, hfit⟩ :=
      compressBisectAdd_spec rfl h.spaced (h.searchPoints_ne_nil hne) h.maxError
    refine ⟨move, hmove, signed_append.mpr ⟨h.signed_search hne hshort, ?_⟩⟩
    exact hfit.signed_addMove h.spaced hshort

end Queue

/-! ## Steps at a constant rate -/

/-- A queue of steps that are `ticks` apart. -/
def evenSteps (ticks : Int) (n : Nat) : List Int :=
  (List.range n).map fun i : Nat => ticks * ((i : Int) + 1)

/-- A stepcompress object with these steps. -/
def evenQueue (ticks : Int) (n : Nat) : StepCompress :=
  { StepCompress.alloc 25 0 0 with queue := (evenSteps ticks n).map u32 }

theorem queued_evenQueue {ticks : Int} {n : Nat} (hticks : 0 < ticks)
    (hn : ticks * n < clockDiffMax) : Queued (evenQueue ticks n) (evenSteps ticks n) where
  queue := rfl
  sorted := by
    rw [List.isChain_iff_pairwise, List.pairwise_cons]
    constructor
    · intro t ht
      obtain ⟨i, -, rfl⟩ := List.mem_map.mp ht
      exact mul_pos hticks (by omega)
    · refine List.pairwise_map.mpr (List.pairwise_lt_range.imp ?_)
      intro i j hij
      exact mul_lt_mul_of_pos_left (by omega) hticks
  near := by
    intro t ht
    obtain ⟨i, hi, rfl⟩ := List.mem_map.mp ht
    have hle : ticks * ((i : Int) + 1) ≤ ticks * n :=
      mul_le_mul_of_nonneg_left (by have := List.mem_range.mp hi; omega) hticks.le
    show ticks * ((i : Int) + 1) < 0 + clockDiffMax
    omega
  maxError := by
    unfold evenQueue StepCompress.alloc
    exact ⟨by norm_num, by norm_num⟩

theorem fits_evenQueue {ticks : Int} {n k : Nat} (hticks : 0 < ticks)
    (hn : ticks * n < clockDiffMax) : Fits (searchPoints (evenQueue ticks n)) ticks 0 k := by
  intro j p _ hp
  have hqueued := queued_evenQueue hticks hn
  obtain ⟨t, ht, rfl⟩ := hqueued.getElem?_points hp
  have hbefore := hqueued.before ht
  have herr := hqueued.maxError
  rw [hqueued.minmaxPoint_eq ht]
  have hvalue : t = ticks * ((j : Int) + 1) := by
    unfold evenSteps at ht
    rw [List.getElem?_map, Option.map_eq_some_iff] at ht
    obtain ⟨i, hi, rfl⟩ := ht
    obtain ⟨hlt, rfl⟩ := List.getElem?_eq_some_iff.mp hi
    rw [List.getElem_range]
  have hlast : (evenQueue ticks n).lastStepClock = 0 := rfl
  unfold quad
  dsimp only
  omega

theorem length_evenQueue (ticks : Int) (n : Nat) : (evenQueue ticks n).queue.length = n := by
  unfold evenQueue evenSteps
  rw [List.length_map, List.length_map, List.length_range]

/-- Three steps make a short queue. -/
theorem signed_iff_threeSteps :
    ∃ move, compressBisectAdd (evenQueue 1000 3) = some move ∧
      ∀ x ∈ compressBisectAddExprs (evenQueue 1000 3) ++ addMoveExprs move, InInt32 x := by
  apply (signed_iff (queued_evenQueue (by norm_num) (by decide)) (by decide)).mpr
  rintro ⟨hlong, -⟩
  rw [length_searchPoints, length_evenQueue] at hlong
  omega

/-- The claim that no queue overflows is false: 46342 steps at a constant rate do. -/
theorem not_signed :
    ¬ ∀ (sc : StepCompress) (ts : List Int), Queued sc ts → ts ≠ [] →
      ∃ move, compressBisectAdd sc = some move ∧
        ∀ x ∈ compressBisectAddExprs sc ++ addMoveExprs move, InInt32 x := by
  intro h
  have hn : (1000 : Int) * (46342 : Nat) < clockDiffMax := by decide
  have hqueued := queued_evenQueue (show (0 : Int) < 1000 by norm_num) hn
  have hne : evenSteps 1000 46342 ≠ [] := by
    intro hnil
    have hlength := length_evenQueue 1000 46342
    rw [hqueued.queue, hnil, List.map_nil, List.length_nil] at hlength
    omega
  obtain ⟨_, _, hsigned⟩ := h _ _ hqueued hne
  have hlong : LongFit (searchPoints (evenQueue 1000 46342)) := by
    refine ⟨?_, 1000, fits_evenQueue (by norm_num) hn⟩
    rw [length_searchPoints, length_evenQueue]
    decide
  exact hqueued.not_signed_search hne hlong fun x hx => hsigned x (List.mem_append_left _ hx)

end FlsunT1.Chelper
