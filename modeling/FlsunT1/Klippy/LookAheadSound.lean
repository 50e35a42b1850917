/-
  Klippy/LookAheadSound.lean --- the junctions of the look-ahead queue fit together.

  Moves in the queue stand in a row: the limits of a junction are reached from the junction
  before it.  The junctions computed for a row join, in the real profile, although the
  peaks come from the smoothed one: where two peaks meet both profiles have reached the
  limit of their junction.  For the same reason what a lazy flush hands over does not
  depend on the moves that come later.
-/
import FlsunT1.Klippy.LookAheadPlan

set_option autoImplicit false

namespace FlsunT1.Klippy

variable {K : Type} [Field K] [LinearOrder K]

/-! ## Moves in a row -/

/-- The limits of a move in the queue. -/
structure Planned (m : QueuedMove K) : Prop where
  accel_pos : 0 < m.accel
  moveD_pos : 0 < m.moveD
  deltaV2_eq : m.deltaV2 = 2 * m.moveD * m.accel
  smooth_pos : 0 < m.smoothDeltaV2
  smooth_le : m.smoothDeltaV2 ≤ m.deltaV2
  cruise_pos : 0 < m.maxCruiseV2
  smoothed_nonneg : 0 ≤ m.maxSmoothedV2
  smoothed_le : m.maxSmoothedV2 ≤ m.maxStartV2
  start_le : m.maxStartV2 ≤ m.maxCruiseV2

/-- The limits of a junction are reached from the junction before. -/
structure JoinedTo (prev m : QueuedMove K) : Prop where
  start_reach : m.maxStartV2 ≤ prev.maxStartV2 + prev.deltaV2
  start_cruise : m.maxStartV2 ≤ prev.maxCruiseV2
  smoothed : m.maxSmoothedV2 = min m.maxStartV2 (prev.maxSmoothedV2 + prev.smoothDeltaV2)

/-- Moves in a row. -/
structure Row (l : List (QueuedMove K)) : Prop where
  planned : ∀ m ∈ l, Planned m
  joined : l.IsChain JoinedTo

/-- A junction that its move can be driven with. -/
structure Fits (m : QueuedMove K) (j : Junction K) : Prop where
  start_nonneg : 0 ≤ j.startV2
  end_nonneg : 0 ≤ j.endV2
  start_le_cruise : j.startV2 ≤ j.cruiseV2
  end_le_cruise : j.endV2 ≤ j.cruiseV2
  cruise_pos : 0 < j.cruiseV2
  cruise_le : j.cruiseV2 ≤ m.maxCruiseV2
  start_le : j.startV2 ≤ m.maxStartV2
  distance : j.cruiseV2 - j.startV2 + (j.cruiseV2 - j.endV2) ≤ m.deltaV2

/-- Moves with one junction each, driven from a speed to another one. -/
def Ridden : K → List (QueuedMove K) → K → Prop
  | v, [], u => v = u
  | v, m :: ms, u => Planned m ∧ ∃ j, m.junctions = [j] ∧ j.startV2 = v ∧ Fits m j ∧
      Ridden j.endV2 ms u

/-- `set_junction` for one move. -/
def QueuedMove.setJunction (m : QueuedMove K) (j : Junction K) : QueuedMove K :=
  { m with junctions := m.junctions ++ [j] }

/-- The speed at the start of some moves, with a peak from in front of them. -/
def entryV2 (p : K) (l : List (QueuedMove K)) : K :=
  if Delays l then min p (startV2 l) else if l = [] then 0 else min (startV2 l) (peakV2 l)

section Basic

variable {m : QueuedMove K} {rest : List (QueuedMove K)}

theorem Row.tail (h : Row (m :: rest)) : Row rest :=
  ⟨fun m' hm' => h.planned m' (List.mem_cons_of_mem _ hm'), h.joined.tail⟩

theorem Row.head (h : Row (m :: rest)) : Planned m := h.planned m List.mem_cons_self

theorem smoothedV2_of_delays (h : Delays (m :: rest)) :
    smoothedV2 (m :: rest) = smoothedV2 rest + m.smoothDeltaV2 := min_eq_right h

theorem smoothedV2_of_not_delays (h : ¬ Delays (m :: rest)) :
    smoothedV2 (m :: rest) = m.maxSmoothedV2 := min_eq_left (le_of_lt (not_le.mp h))

theorem peakV2_of_peaks (hdelays : ¬ Delays (m :: rest)) (hpeaks : Peaks m rest) :
    peakV2 (m :: rest) = min m.maxCruiseV2
      ((smoothedV2 (m :: rest) + (smoothedV2 rest + m.smoothDeltaV2)) * (1 / 2)) := by
  rw [peakV2, if_pos ⟨hdelays, hpeaks⟩]

theorem peakV2_of_not_peaks (hpeaks : ¬ Peaks m rest) : peakV2 (m :: rest) = peakV2 rest := by
  rw [peakV2, if_neg fun hboth => hpeaks hboth.2]

/-- A junction that the smoothed profile reaches from neither side is at its limit. -/
def AtLimit : List (QueuedMove K) → Prop
  | [] => True
  | m :: _ => m.maxSmoothedV2 = m.maxStartV2

theorem Row.atLimit (h : Row (m :: rest)) (hrest : ¬ Delays rest)
    (hlt : smoothedV2 rest < m.maxSmoothedV2 + m.smoothDeltaV2) : AtLimit rest := by
  cases rest with
  | nil => trivial
  | cons m' rest =>
    have hjoined : JoinedTo m m' := (List.isChain_cons_cons.mp h.joined).1
    rw [smoothedV2_of_not_delays hrest] at hlt
    have hmin := hjoined.smoothed
    rcases min_choice m'.maxStartV2 (m.maxSmoothedV2 + m.smoothDeltaV2) with hleft | hright
    · exact hmin.trans hleft
    · rw [hright] at hmin
      exact absurd hmin (ne_of_lt hlt)

theorem entryV2_of_delays {p : K} {l : List (QueuedMove K)} (hdelays : Delays l) :
    entryV2 p l = min p (startV2 l) :=
  if_pos hdelays

theorem entryV2_of_not_delays {p : K} (hdelays : ¬ Delays (m :: rest)) :
    entryV2 p (m :: rest) = min (startV2 (m :: rest)) (peakV2 (m :: rest)) := by
  rw [entryV2, if_neg hdelays, if_neg (List.cons_ne_nil _ _)]

theorem Row.left {l more : List (QueuedMove K)} (h : Row (l ++ more)) : Row l :=
  ⟨fun m hm => h.planned m (List.mem_append_left _ hm), h.joined.left_of_append⟩

theorem Row.right {l more : List (QueuedMove K)} (h : Row (l ++ more)) : Row more :=
  ⟨fun m hm => h.planned m (List.mem_append_right _ hm), h.joined.right_of_append⟩

theorem delays_cons : Delays (m :: rest) ↔
    smoothedV2 rest + m.smoothDeltaV2 ≤ m.maxSmoothedV2 := Iff.rfl

theorem junctionsFrom_append : ∀ (pre : List (QueuedMove K)) (post : List (QueuedMove K)) (p : K),
    ∃ p', (junctionsFrom p (pre ++ post)).drop pre.length = junctionsFrom p' post := by
  intro pre
  induction pre with
  | nil => intro post p; exact ⟨p, rfl⟩
  | cons m pre ih =>
    intro post p
    rw [List.cons_append, List.length_cons]
    by_cases hdelays : Delays (m :: (pre ++ post))
    · rw [junctionsFrom_of_delays hdelays]
      exact ih post _
    · rw [junctionsFrom_of_not_delays hdelays]
      exact ih post _

theorem Ridden.append : ∀ {a b : List (QueuedMove K)} {v w u : K}, Ridden v a w → Ridden w b u →
    Ridden v (a ++ b) u := by
  intro a
  induction a with
  | nil =>
    intro b v w u h h'
    obtain rfl : v = w := h
    exact h'
  | cons m a ih =>
    intro b v w u h h'
    obtain ⟨hplanned, j, hj, hstart, hfits, hrest⟩ := h
    exact ⟨hplanned, j, hj, hstart, hfits, ih hrest h'⟩

theorem Ridden.front : ∀ {a b : List (QueuedMove K)} {v u : K}, Ridden v (a ++ b) u →
    ∃ w, Ridden v a w := by
  intro a
  induction a with
  | nil => intro b v u _; exact ⟨v, rfl⟩
  | cons m a ih =>
    intro b v u h
    obtain ⟨hplanned, j, hj, hstart, hfits, hrest⟩ := h
    obtain ⟨w, hw⟩ := ih hrest
    exact ⟨w, hplanned, j, hj, hstart, hfits, hw⟩

theorem Ridden.cons {ms : List (QueuedMove K)} {j : Junction K} {u : K} (hm : Planned m)
    (hfresh : m.junctions = []) (hfits : Fits m j) (h : Ridden j.endV2 ms u) :
    Ridden j.startV2 (m.setJunction j :: ms) u := by
  obtain ⟨h₁, h₂, h₃, h₄, h₅, h₆, h₇, h₈, h₉⟩ := hm
  obtain ⟨k₁, k₂, k₃, k₄, k₅, k₆, k₇, k₈⟩ := hfits
  refine ⟨⟨h₁, h₂, h₃, h₄, h₅, h₆, h₇, h₈, h₉⟩, j, ?_, rfl, ⟨k₁, k₂, k₃, k₄, k₅, k₆, k₇, k₈⟩, h⟩
  simp only [QueuedMove.setJunction, hfresh, List.nil_append]

end Basic

variable [IsStrictOrderedRing K] {m : QueuedMove K} {rest more l : List (QueuedMove K)} {p v : K}

namespace Row

theorem profiles : ∀ {l : List (QueuedMove K)}, Row l →
    0 ≤ smoothedV2 l ∧ smoothedV2 l ≤ startV2 l := by
  intro l
  induction l with
  | nil => intro _; exact ⟨le_refl _, le_refl _⟩
  | cons m rest ih =>
    intro h
    obtain ⟨hnonneg, hle⟩ := ih h.tail
    have hm := h.head
    have hpos := hm.smooth_pos
    refine ⟨le_min hm.smoothed_nonneg (by linarith), ?_⟩
    exact min_le_min hm.smoothed_le (add_le_add hle hm.smooth_le)

theorem rest_le (h : Row (m :: rest)) : startV2 rest ≤ m.maxStartV2 + m.deltaV2 ∧
    startV2 rest ≤ m.maxCruiseV2 ∧ smoothedV2 rest ≤ m.maxSmoothedV2 + m.smoothDeltaV2 := by
  have hm := h.head
  have hcruise := hm.cruise_pos
  have hsmooth := hm.smooth_pos
  have hle := hm.smooth_le
  have hnonneg := hm.smoothed_nonneg
  have hstart := hm.smoothed_le
  cases rest with
  | nil =>
    simp only [startV2, smoothedV2]
    exact ⟨by linarith, by linarith, by linarith⟩
  | cons m' rest =>
    have hjoined : JoinedTo m m' := (List.isChain_cons_cons.mp h.joined).1
    have hstart' : startV2 (m' :: rest) ≤ m'.maxStartV2 := min_le_left _ _
    have hsmoothed' : smoothedV2 (m' :: rest) ≤ m'.maxSmoothedV2 := min_le_left _ _
    refine ⟨hstart'.trans hjoined.start_reach, hstart'.trans hjoined.start_cruise,
      hsmoothed'.trans ?_⟩
    rw [hjoined.smoothed]
    exact min_le_right _ _

end Row

theorem Row.startV2_eq (h : Row l) (hlimit : AtLimit l) (hdelays : ¬ Delays l) :
    startV2 l = smoothedV2 l := by
  cases l with
  | nil => rfl
  | cons m rest =>
    refine le_antisymm ?_ h.profiles.2
    rw [smoothedV2_of_not_delays hdelays, hlimit]
    exact min_le_left _ _

theorem Row.smoothed_lt_of_delays (h : Row (m :: rest)) (hdelays : Delays (m :: rest)) :
    smoothedV2 rest < m.maxSmoothedV2 + m.smoothDeltaV2 := by
  have hpos := h.head.smooth_pos
  have hle : smoothedV2 rest + m.smoothDeltaV2 ≤ m.maxSmoothedV2 := hdelays
  linarith

/-! ## Peaks -/

theorem Row.le_peak_of_peaks (h : Row (m :: rest)) (hdelays : ¬ Delays (m :: rest))
    (hpeaks : Peaks m rest) : smoothedV2 rest ≤ peakV2 (m :: rest) := by
  obtain ⟨-, hcruise, hsmoothed⟩ := h.rest_le
  have hle := h.tail.profiles.2
  rw [peakV2_of_peaks hdelays hpeaks, smoothedV2_of_not_delays hdelays]
  refine le_min (hle.trans hcruise) ?_
  linarith

/-- The peak in force at a move that does not delay. -/
theorem Row.peak_pos : ∀ {rest : List (QueuedMove K)} {m : QueuedMove K}, Row (m :: rest) →
    ¬ Delays (m :: rest) → 0 < peakV2 (m :: rest) ∧
      smoothedV2 (m :: rest) ≤ peakV2 (m :: rest) := by
  intro rest
  induction rest with
  | nil =>
    intro m h hdelays
    have hm := h.head
    have hpos := hm.smooth_pos
    have hnonneg := hm.smoothed_nonneg
    have hpeaks : Peaks m [] := by
      refine .inl ?_
      rw [smoothedV2_of_not_delays hdelays]
      exact lt_of_le_of_lt hnonneg (lt_add_of_pos_right _ hpos)
    have hlt : m.maxSmoothedV2 < smoothedV2 [] + m.smoothDeltaV2 := not_le.mp hdelays
    rw [peakV2_of_peaks hdelays hpeaks, smoothedV2_of_not_delays hdelays]
    refine ⟨lt_min hm.cruise_pos ?_, le_min (hm.smoothed_le.trans hm.start_le) ?_⟩
    · linarith
    · linarith
  | cons m' rest ih =>
    intro m h hdelays
    have hm := h.head
    have hpos := hm.smooth_pos
    have hnonneg := hm.smoothed_nonneg
    have hlt : m.maxSmoothedV2 < smoothedV2 (m' :: rest) + m.smoothDeltaV2 := not_le.mp hdelays
    by_cases hpeaks : Peaks m (m' :: rest)
    · rw [peakV2_of_peaks hdelays hpeaks, smoothedV2_of_not_delays hdelays]
      refine ⟨lt_min hm.cruise_pos ?_, le_min (hm.smoothed_le.trans hm.start_le) ?_⟩
      · linarith
      · linarith
    · -- the peak of the moves behind is in force, and above their start
      obtain ⟨hge, hrest⟩ := not_or.mp hpeaks
      obtain ⟨hpeak, hle⟩ := ih h.tail hrest
      rw [peakV2_of_not_peaks hpeaks]
      refine ⟨hpeak, ?_⟩
      linarith

/-! ## Joining -/

/-- Where a move joins the moves behind it, its end is their start; `p` is the peak, or the
speed that is left of it, in force at the move. -/
theorem Row.end_eq (h : Row (m :: rest)) (hp : smoothedV2 rest ≤ p)
    (hsame : ¬ Delays rest → rest ≠ [] → p = peakV2 rest ∨
      smoothedV2 rest < m.maxSmoothedV2 + m.smoothDeltaV2) :
    min (startV2 rest) p = entryV2 p rest := by
  by_cases hdelays : Delays rest
  · rw [entryV2_of_delays hdelays, min_comm]
  · cases rest with
    | nil =>
      rw [entryV2, if_neg hdelays, if_pos rfl]
      exact min_eq_left hp
    | cons m' rest =>
      rw [entryV2_of_not_delays hdelays]
      rcases hsame hdelays (List.cons_ne_nil _ _) with rfl | hlt
      · rfl
      · -- both profiles are at the limit, which is below both peaks
        have heq := h.tail.startV2_eq (h.atLimit hdelays hlt) hdelays
        rw [heq, min_eq_left hp, min_eq_left (h.tail.peak_pos hdelays).2]

theorem Row.cruise_cases (h : Row (m :: rest)) :
    min (startV2 (m :: rest)) (cruiseOf m rest) =
        min (startV2 (m :: rest)) (peakV2 (m :: rest)) ∧
      min (startV2 rest) (cruiseOf m rest) = min (startV2 rest) (peakV2 (m :: rest)) := by
  have hm := h.head
  obtain ⟨hreach, hcruise, -⟩ := h.rest_le
  have hstart : startV2 (m :: rest) ≤ m.maxStartV2 := min_le_left _ _
  have hreached : startV2 (m :: rest) ≤ startV2 rest + m.deltaV2 := min_le_right _ _
  have hdelta : 0 ≤ m.deltaV2 := le_trans (le_of_lt hm.smooth_pos) hm.smooth_le
  have hhalf : startV2 rest ≤ (startV2 (m :: rest) + (startV2 rest + m.deltaV2)) * (1 / 2) := by
    have hlow : startV2 rest - m.deltaV2 ≤ startV2 (m :: rest) :=
      le_min (by linarith) (by linarith)
    linarith
  unfold cruiseOf
  refine ⟨?_, ?_⟩
  · rw [← min_assoc, ← min_assoc, min_eq_left (show startV2 (m :: rest) ≤ _ by linarith),
      min_eq_left (hstart.trans hm.start_le)]
  · rw [← min_assoc, ← min_assoc, min_eq_left hhalf, min_eq_left hcruise]

theorem Row.fits_of_not_delays (h : Row (m :: rest)) (hdelays : ¬ Delays (m :: rest)) :
    Fits m ⟨min (startV2 (m :: rest)) (cruiseOf m rest), cruiseOf m rest,
      min (startV2 rest) (cruiseOf m rest)⟩ := by
  have hm := h.head
  obtain ⟨hreach, -, -⟩ := h.rest_le
  obtain ⟨hnonneg, hle⟩ := h.profiles
  obtain ⟨hnonneg', hle'⟩ := h.tail.profiles
  have hdelta : 0 < m.deltaV2 := lt_of_lt_of_le hm.smooth_pos hm.smooth_le
  have hstart : startV2 (m :: rest) ≤ m.maxStartV2 := min_le_left _ _
  have hreached : startV2 (m :: rest) ≤ startV2 rest + m.deltaV2 := min_le_right _ _
  have hlow : startV2 rest ≤ startV2 (m :: rest) + m.deltaV2 := by
    have hmin : startV2 rest - m.deltaV2 ≤ startV2 (m :: rest) :=
      le_min (by linarith) (by linarith)
    linarith
  have hpos : 0 < cruiseOf m rest :=
    lt_min (by linarith) (lt_min hm.cruise_pos (h.peak_pos hdelays).1)
  have hhalf : cruiseOf m rest ≤ (startV2 (m :: rest) + (startV2 rest + m.deltaV2)) * (1 / 2) :=
    min_le_left _ _
  refine ⟨le_min (by linarith) (le_of_lt hpos), le_min (by linarith) (le_of_lt hpos),
    min_le_right _ _, min_le_right _ _, hpos, (min_le_right _ _).trans (min_le_left _ _),
    (min_le_left _ _).trans hstart, ?_⟩
  simp only
  rcases min_choice (startV2 (m :: rest)) (cruiseOf m rest) with hs | hs <;>
    rcases min_choice (startV2 rest) (cruiseOf m rest) with he | he
  · rw [hs, he]
    linarith
  · have hend : cruiseOf m rest ≤ startV2 rest := min_eq_right_iff.mp he
    rw [hs, he]
    linarith
  · have hbegin : cruiseOf m rest ≤ startV2 (m :: rest) := min_eq_right_iff.mp hs
    rw [hs, he]
    linarith
  · rw [hs, he]
    linarith

theorem Row.fits_of_delays (h : Row (m :: rest)) (hdelays : Delays (m :: rest)) (hp : 0 < p) :
    Fits m ⟨min (startV2 (m :: rest)) (min p (startV2 (m :: rest))), min p (startV2 (m :: rest)),
      min (startV2 rest) (min p (startV2 (m :: rest)))⟩ := by
  have hm := h.head
  obtain ⟨hnonneg, hle⟩ := h.profiles
  obtain ⟨hnonneg', hle'⟩ := h.tail.profiles
  have hdelta : 0 < m.deltaV2 := lt_of_lt_of_le hm.smooth_pos hm.smooth_le
  have hstart : startV2 (m :: rest) ≤ m.maxStartV2 := min_le_left _ _
  have hreached : startV2 (m :: rest) ≤ startV2 rest + m.deltaV2 := min_le_right _ _
  have hspos : 0 < startV2 (m :: rest) := by
    rw [smoothedV2_of_delays hdelays] at hle
    have hpos := hm.smooth_pos
    linarith
  have hpos : 0 < min p (startV2 (m :: rest)) := lt_min hp hspos
  have hmc : min p (startV2 (m :: rest)) ≤ startV2 (m :: rest) := min_le_right _ _
  have hsame : min (startV2 (m :: rest)) (min p (startV2 (m :: rest))) =
      min p (startV2 (m :: rest)) := min_eq_right hmc
  rw [hsame]
  refine ⟨le_of_lt hpos, le_min (by linarith) (le_of_lt hpos), le_refl _, min_le_right _ _, hpos,
    (hmc.trans hstart).trans hm.start_le, hmc.trans hstart, ?_⟩
  simp only
  rcases min_choice (startV2 rest) (min p (startV2 (m :: rest))) with he | he
  · rw [he]
    linarith
  · rw [he]
    linarith

/-- The junctions of a row join and can be driven with, and end at rest. -/
theorem Row.ridden : ∀ {l : List (QueuedMove K)} {p : K}, Row l → (∀ m ∈ l, m.junctions = []) →
    smoothedV2 l ≤ p → 0 < p →
      Ridden (entryV2 p l) (List.zipWith QueuedMove.setJunction l (junctionsFrom p l)) 0 := by
  intro l
  induction l with
  | nil =>
    intro p _ _ _ _
    simp only [junctionsFrom, List.zipWith_nil_left, Ridden, entryV2, Delays, if_false, if_true]
  | cons m rest ih =>
    intro p h hfresh hp hpos
    have hm := h.head
    have hsmooth := hm.smooth_pos
    have hle := h.profiles.2
    obtain ⟨hfresh, hfreshRest⟩ := List.forall_mem_cons.mp hfresh
    by_cases hdelays : Delays (m :: rest)
    · rw [junctionsFrom_of_delays hdelays, entryV2_of_delays hdelays, List.zipWith_cons_cons]
      rw [smoothedV2_of_delays hdelays] at hp hle
      have hrest : smoothedV2 rest ≤ min p (startV2 (m :: rest)) :=
        le_min (by linarith) (by linarith)
      have hfits := h.fits_of_delays hdelays hpos
      have htail := ih h.tail hfreshRest hrest hfits.cruise_pos
      rw [← h.end_eq hrest fun _ _ => .inr (h.smoothed_lt_of_delays hdelays)] at htail
      have hridden := Ridden.cons hm hfresh hfits htail
      rw [min_eq_right (min_le_right p _)] at hridden ⊢
      exact hridden
    · rw [junctionsFrom_of_not_delays hdelays, entryV2_of_not_delays hdelays,
        List.zipWith_cons_cons]
      obtain ⟨hstart, hend⟩ := h.cruise_cases
      obtain ⟨hpeak, hpeakle⟩ := h.peak_pos hdelays
      have hrest : smoothedV2 rest ≤ peakV2 (m :: rest) := by
        by_cases hpeaks : Peaks m rest
        · exact h.le_peak_of_peaks hdelays hpeaks
        · rw [peakV2_of_not_peaks hpeaks]
          cases rest with
          | nil =>
            refine absurd (.inl ?_) hpeaks
            rw [smoothedV2_of_not_delays hdelays]
            have hnonneg := hm.smoothed_nonneg
            exact lt_of_le_of_lt hnonneg (lt_add_of_pos_right _ hsmooth)
          | cons m' rest => exact (h.tail.peak_pos fun hd => hpeaks (.inr hd)).2
      have hsame : ¬ Delays rest → rest ≠ [] → peakV2 (m :: rest) = peakV2 rest ∨
          smoothedV2 rest < m.maxSmoothedV2 + m.smoothDeltaV2 := by
        intro hd _
        by_cases hpeaks : Peaks m rest
        · rcases hpeaks with hlt | hd'
          · rw [smoothedV2_of_not_delays hdelays] at hlt
            exact .inr hlt
          · contradiction
        · exact .inl (peakV2_of_not_peaks hpeaks)
      have htail := ih h.tail hfreshRest hrest hpeak
      rw [← h.end_eq hrest hsame, ← hend] at htail
      rw [← hstart]
      exact Ridden.cons hm hfresh (h.fits_of_not_delays hdelays) htail

/-! ## What does not change when moves are added -/

/-- The profiles are known up to the first junction at its limit. -/
def Firm : List (QueuedMove K) → Prop
  | [] => False
  | m :: rest => if Delays (m :: rest) then Firm rest else m.maxSmoothedV2 = m.maxStartV2

theorem Row.smoothedV2_mono (h : Row (l ++ more)) : smoothedV2 l ≤ smoothedV2 (l ++ more) := by
  induction l with
  | nil => exact h.profiles.1
  | cons m rest ih =>
    have hrest := ih h.tail
    rw [List.cons_append, smoothedV2_cons, smoothedV2_cons]
    exact min_le_min (le_refl _) (add_le_add hrest (le_refl _))

/-- The profiles of a firm row are the same with more moves. -/
theorem Firm.append : ∀ {l : List (QueuedMove K)}, Firm l → Row (l ++ more) →
    startV2 (l ++ more) = startV2 l ∧ smoothedV2 (l ++ more) = smoothedV2 l ∧
      (Delays (l ++ more) ↔ Delays l) := by
  intro l
  induction l with
  | nil => intro h; exact h.elim
  | cons m rest ih =>
    intro hfirm h
    by_cases hdelays : Delays (m :: rest)
    · rw [Firm, if_pos hdelays] at hfirm
      obtain ⟨hstart, hsmoothed, -⟩ := ih hfirm h.tail
      rw [List.cons_append, startV2_cons, startV2_cons, smoothedV2_cons, smoothedV2_cons, hstart,
        hsmoothed]
      refine ⟨rfl, rfl, ?_⟩
      simp only [Delays, hsmoothed]
    · rw [Firm, if_neg hdelays] at hfirm
      have hmono := h.tail.smoothedV2_mono
      have hlt : m.maxSmoothedV2 < smoothedV2 rest + m.smoothDeltaV2 := not_le.mp hdelays
      have hdelays' : ¬ Delays (m :: (rest ++ more)) := not_le.mpr (by linarith)
      have heq' := h.left.startV2_eq hfirm hdelays
      rw [List.cons_append] at h ⊢
      have heq := h.startV2_eq hfirm hdelays'
      rw [smoothedV2_of_not_delays hdelays'] at heq
      rw [smoothedV2_of_not_delays hdelays] at heq'
      refine ⟨heq.trans heq'.symm, ?_, iff_of_false hdelays' hdelays⟩
      rw [smoothedV2_of_not_delays hdelays, smoothedV2_of_not_delays hdelays']

theorem Row.firm_of_delays : ∀ {l : List (QueuedMove K)}, Row l → Delays l → peakV2 l ≠ 0 →
    Firm l := by
  intro l
  induction l with
  | nil => intro _ hdelays; exact hdelays.elim
  | cons m rest ih =>
    intro h hdelays hpeak
    rw [Firm, if_pos hdelays]
    rw [peakV2, if_neg fun hboth => hboth.1 hdelays] at hpeak
    by_cases hrest : Delays rest
    · exact ih h.tail hrest hpeak
    · have hlimit := h.atLimit hrest (h.smoothed_lt_of_delays hdelays)
      cases rest with
      | nil => exact absurd rfl hpeak
      | cons m' rest =>
        rw [Firm, if_neg hrest]
        exact hlimit

/-- What the moves in front of a row see of it. -/
structure SameFront (a b : List (QueuedMove K)) : Prop where
  start : startV2 a = startV2 b
  smoothed : smoothedV2 a = smoothedV2 b
  delays : Delays a ↔ Delays b
  peak : peakV2 a = peakV2 b

/-- Where a lazy flush stops, what is in front of it does not see moves that are added. -/
theorem Row.sameFront_of_stops (hmore : Row (l ++ more)) (hstop : StopsAt l) :
    SameFront (l ++ more) l := by
  have h : Row l := hmore.left
  cases l with
  | nil => exact hstop.elim
  | cons m rest =>
    obtain ⟨hdelays, hpeaks, hpeak⟩ := hstop
    have hfirm : Firm rest := by
      by_cases hrest : Delays rest
      · exact h.tail.firm_of_delays hrest hpeak
      · rcases hpeaks with hlt | hd
        · rw [smoothedV2_of_not_delays hdelays] at hlt
          have hlimit := h.atLimit hrest hlt
          cases rest with
          | nil => exact absurd rfl hpeak
          | cons m' rest =>
            rw [Firm, if_neg hrest]
            exact hlimit
        · contradiction
    obtain ⟨hstart, hsmoothed, hiff⟩ := hfirm.append hmore.tail
    rw [List.cons_append]
    have hsame : startV2 (m :: (rest ++ more)) = startV2 (m :: rest) := by
      rw [startV2_cons, startV2_cons, hstart]
    have hsame' : smoothedV2 (m :: (rest ++ more)) = smoothedV2 (m :: rest) := by
      rw [smoothedV2_cons, smoothedV2_cons, hsmoothed]
    have hdelays' : ¬ Delays (m :: (rest ++ more)) := by
      rw [delays_cons, hsmoothed, ← delays_cons]
      exact hdelays
    have hpeaks' : Peaks m (rest ++ more) := by
      unfold Peaks at hpeaks ⊢
      rw [hsmoothed, hsame', hiff]
      exact hpeaks
    refine ⟨hsame, hsame', iff_of_false hdelays' hdelays, ?_⟩
    rw [peakV2_of_peaks hdelays' hpeaks', peakV2_of_peaks hdelays hpeaks, hsame', hsmoothed]

/-- A row that starts at rest. -/
structure Resting (l : List (QueuedMove K)) : Prop where
  row : Row l
  rest : ∀ m ∈ l.head?, m.maxStartV2 = 0

theorem Resting.not_delays (h : Resting l) : ¬ Delays l := by
  cases l with
  | nil => exact id
  | cons m rest =>
    have hm := h.row.head
    have hpos := hm.smooth_pos
    have hstart : m.maxSmoothedV2 ≤ 0 := h.rest m rfl ▸ hm.smoothed_le
    have hnonneg := h.row.tail.profiles.1
    exact not_le.mpr (by linarith)

theorem Resting.ridden (h : Resting l) (hfresh : ∀ m ∈ l, m.junctions = []) :
    Ridden 0 (List.zipWith QueuedMove.setJunction l (junctionsFrom 0 l)) 0 := by
  cases l with
  | nil => rfl
  | cons m rest =>
    have hdelays := h.not_delays
    obtain ⟨hpos, hle⟩ := h.row.peak_pos hdelays
    have hridden := h.row.ridden hfresh hle hpos
    obtain ⟨hnonneg, hreach⟩ := h.row.tail.profiles
    have hdelta := h.row.head.smooth_le
    have hsmooth := h.row.head.smooth_pos
    have hmin : 0 ≤ startV2 rest + m.deltaV2 := by linarith
    rw [entryV2_of_not_delays hdelays, startV2_cons, h.rest m rfl, min_eq_left hmin,
      min_eq_left (le_of_lt hpos)] at hridden
    rw [junctionsFrom_of_not_delays hdelays] at hridden ⊢
    exact hridden

end FlsunT1.Klippy
