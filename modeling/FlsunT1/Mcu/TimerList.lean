/-
  Mcu/TimerList.lean --- the shape of the timer list and what the loops do to it.

  Clocks wrap around, so a list can be sorted only relative to a window: a base
  clock from which every waketime on the list is less than `2^31` ticks away.
  Inside a window `timer_is_before` compares distances from the base.
-/
import FlsunT1.Library.Fuel
import FlsunT1.Library.LinkedList
import FlsunT1.Mcu.Sched

set_option autoImplicit false

namespace FlsunT1.Mcu

open FlsunT1.Library

/-! ## Windows -/

/-- The clock `v` is less than `2^31` ticks after `base`. -/
def Within (base v : Int) : Prop := u32 (v - base) < 0x80000000

instance (base v : Int) : Decidable (Within base v) := inferInstanceAs (Decidable (_ < _))

section Window

variable {base v w : Int}

theorem Within.before_iff (hv : Within base v) (hw : Within base w) :
    timerIsBefore v w ↔ u32 (v - base) < u32 (w - base) := by
  unfold Within at hv hw
  unfold timerIsBefore i32
  unfold u32 at *
  omega

theorem Within.not_before_iff (hv : Within base v) (hw : Within base w) :
    ¬ timerIsBefore v w ↔ u32 (w - base) ≤ u32 (v - base) := by
  rw [hv.before_iff hw, not_lt]

theorem Within.asymm (hv : Within base v) (hw : Within base w) (h : timerIsBefore v w) :
    ¬ timerIsBefore w v := by
  rw [hw.not_before_iff hv]
  exact le_of_lt ((hv.before_iff hw).mp h)

theorem before_opposite (h : ¬ timerIsBefore w v) : timerIsBefore w (u32 (v + 0x80000000)) := by
  unfold timerIsBefore i32 at *
  unfold u32
  omega

end Window

/-! ## The list -/

/-- `l` is the timer list: the pointers lead from `timer_list` through `l` to the
sentinel, which ends the list; `deleted_timer` can only come first. -/
structure TimerList (s : Sched) (l : List TimerId) : Prop where
  linked : Linked s.next (l ++ [.sentinel])
  head : l.head? = some s.timerList
  nodup : (l ++ [TimerId.sentinel]).Nodup
  deletedHead : .deleted ∉ l.tail
  sorted : l.IsChain fun x y => ¬ timerIsBefore (s.waketime y) (s.waketime x)

theorem sorted_iff_pairwise {waketime : TimerId → Int} {l : List TimerId} {base : Int}
    (hwin : ∀ x ∈ l, Within base (waketime x)) :
    (l.IsChain fun x y => ¬ timerIsBefore (waketime y) (waketime x)) ↔
      l.Pairwise fun x y => u32 (waketime x - base) ≤ u32 (waketime y - base) := by
  have htrans : Trans (fun x y => u32 (waketime x - base) ≤ u32 (waketime y - base))
      (fun x y => u32 (waketime x - base) ≤ u32 (waketime y - base))
      (fun x y : TimerId => u32 (waketime x - base) ≤ u32 (waketime y - base)) :=
    ⟨fun h1 h2 => le_trans h1 h2⟩
  rw [← List.isChain_iff_pairwise]
  exact List.IsChain.iff_of_mem_imp fun x y hx hy => (hwin y hy).not_before_iff (hwin x hx)

namespace TimerList

variable {s : Sched} {l : List TimerId} {t : TimerId} {w base : Int}

theorem sentinel_notMem (h : TimerList s l) : .sentinel ∉ l := fun hmem =>
  (List.nodup_append.mp h.nodup).2.2 _ hmem _ (by simp) rfl

theorem nodup_list (h : TimerList s l) : l.Nodup :=
  (List.nodup_append.mp h.nodup).1

theorem update_waketime (h : TimerList s l) (ht : t ∉ l) :
    TimerList { s with waketime := Function.update s.waketime t w } l where
  linked := h.linked
  head := h.head
  nodup := h.nodup
  deletedHead := h.deletedHead
  sorted := h.sorted.imp_of_mem_imp fun x y hx hy hxy => by
    have hxt : x ≠ t := fun heq => ht (heq ▸ hx)
    have hyt : y ≠ t := fun heq => ht (heq ▸ hy)
    simpa [hxt, hyt] using hxy

theorem head_earliest (h : TimerList s l) (hwin : ∀ x ∈ l, Within base (s.waketime x))
    {x : TimerId} (hx : x ∈ l) : ¬ timerIsBefore (s.waketime x) (s.waketime s.timerList) := by
  have hpair := (sorted_iff_pairwise hwin).mp h.sorted
  have hhead := h.head
  cases l with
  | nil => cases hx
  | cons y rest =>
    simp only [List.head?_cons, Option.some.injEq] at hhead
    rw [← hhead, (hwin x hx).not_before_iff (hwin y (by simp))]
    rcases List.mem_cons.mp hx with rfl | hx
    · exact le_refl _
    · exact (List.pairwise_cons.mp hpair).1 x hx

end TimerList

/-! ## The loops -/

/-- What `insert_timer` finds: the first neighbours after `pos` between which the
waketime belongs. -/
theorem insertTimer_computes {s : Sched} {pos t : TimerId} {w : Int} {post : List TimerId} :
    ∀ pre : List TimerId, Linked s.next (pre ++ pos :: post) →
      ¬ timerIsBefore w (s.waketime pos) → (∃ z ∈ post, timerIsBefore w (s.waketime z)) →
      ∃ pre' p q post', pre ++ pos :: post = pre' ++ p :: q :: post' ∧
        ¬ timerIsBefore w (s.waketime p) ∧ timerIsBefore w (s.waketime q) ∧
        Computes (fun fuel => insertTimer fuel pos t w s)
          { s with next := Function.update (Function.update s.next t (some q)) p (some t) } := by
  induction post generalizing pos with
  | nil =>
    intro _ _ _ ⟨z, hz, _⟩
    cases hz
  | cons q post ih =>
    intro pre hlinked hpos hstop
    have hnext := hlinked.next_eq
    by_cases hq : timerIsBefore w (s.waketime q)
    · refine ⟨pre, pos, q, post, rfl, hpos, hq, ?_⟩
      exact Computes.succ rfl (fun n => by simp [insertTimer, hnext, hq]) (Computes.pure _)
    · have hstop' : ∃ z ∈ post, timerIsBefore w (s.waketime z) := by
        obtain ⟨z, hz, hbefore⟩ := hstop
        rcases List.mem_cons.mp hz with rfl | hz
        · exact absurd hbefore hq
        · exact ⟨z, hz, hbefore⟩
      obtain ⟨pre', p, q', post', heq, hp, hq', hcomp⟩ :=
        ih (pre ++ [pos]) (by simpa using hlinked) hq hstop'
      refine ⟨pre', p, q', post', by rw [← heq]; simp, hp, hq', ?_⟩
      exact Computes.succ rfl (fun n => by simp [insertTimer, hnext, hq]) hcomp

/-- What the loop of `sched_del_timer` does: it takes `del` out, or finds that it
is not on the list. -/
theorem unlinkTimer_computes {s : Sched} {pos : TimerId} (del : TimerId) {post : List TimerId} :
    ∀ pre : List TimerId, Linked s.next (pre ++ pos :: post) →
      (del ∉ post ∧ Computes (fun fuel => unlinkTimer fuel pos del s) s) ∨
        ∃ pre' p post', pre ++ pos :: post = pre' ++ p :: del :: post' ∧
          Computes (fun fuel => unlinkTimer fuel pos del s)
            { s with next := Function.update s.next p (s.next del) } := by
  induction post generalizing pos with
  | nil =>
    intro pre hlinked
    have hnext := hlinked.next_last
    exact .inl ⟨by simp,
      Computes.succ rfl (fun n => by simp [unlinkTimer, hnext]) (Computes.pure _)⟩
  | cons q post ih =>
    intro pre hlinked
    have hnext := hlinked.next_eq
    by_cases hq : q = del
    · subst hq
      exact .inr ⟨pre, pos, post, rfl,
        Computes.succ rfl (fun n => by simp [unlinkTimer, hnext]) (Computes.pure _)⟩
    · have hround : ∀ n, unlinkTimer (n + 1) pos del s = unlinkTimer n q del s := by
        intro n
        simp [unlinkTimer, hnext, hq]
      rcases ih (pre ++ [pos]) (by simpa using hlinked) with ⟨hmem, hcomp⟩ |
        ⟨pre', p, post', heq, hcomp⟩
      · exact .inl ⟨by simp [Ne.symm hq, hmem], Computes.succ rfl hround hcomp⟩
      · exact .inr ⟨pre', p, post', by rw [← heq]; simp, Computes.succ rfl hround hcomp⟩

theorem split_sentinel {l a : List TimerId} {q : TimerId} {b : List TimerId}
    (h : l ++ [.sentinel] = a ++ q :: b) :
    ∃ c, q :: b = c ++ [.sentinel] ∧ l = a ++ c := by
  obtain ⟨c, z, hc⟩ : ∃ c z, q :: b = c ++ [z] :=
    ⟨(q :: b).dropLast, (q :: b).getLast (by simp), (List.dropLast_append_getLast _).symm⟩
  rw [hc, ← List.append_assoc] at h
  obtain ⟨hl, hz⟩ := List.append_inj' h rfl
  simp only [List.cons.injEq, and_true] at hz
  exact ⟨c, by rw [hc, hz], hl⟩

namespace TimerList

variable {s : Sched} {l : List TimerId} {w base : Int}

/-- Inserting a timer from a position at or before its place. -/
theorem insert {pre post : List TimerId} {pos t : TimerId} (h : TimerList s l)
    (hl : l = pre ++ pos :: post) (ht : t ∉ l) (hts : t ≠ .sentinel) (htd : t ≠ .deleted)
    (hw : s.waketime t = w) (hpos : ¬ timerIsBefore w (s.waketime pos))
    (hstop : ∃ z ∈ post ++ [.sentinel], timerIsBefore w (s.waketime z))
    (hasymm : ∀ x ∈ l, timerIsBefore w (s.waketime x) → ¬ timerIsBefore (s.waketime x) w) :
    ∃ next l', Computes (fun fuel => insertTimer fuel pos t w s) { s with next := next } ∧
      TimerList { s with next := next } l' ∧ ∀ x, x ∈ l' ↔ x = t ∨ x ∈ l := by
  subst hl
  have hlinked := h.linked
  rw [List.append_assoc, List.cons_append] at hlinked
  obtain ⟨a, p, q, b, hsplit, hp, hq, hcomp⟩ := insertTimer_computes (t := t) _ hlinked hpos hstop
  have hwhole : (pre ++ pos :: post) ++ [.sentinel] = (a ++ [p]) ++ q :: b := by
    rw [List.append_assoc, List.cons_append, hsplit]; simp
  obtain ⟨c, hc, hlist⟩ := split_sentinel hwhole
  have hlist' : pre ++ pos :: post = a ++ p :: c := by rw [hlist]; simp
  have htail : a ++ p :: q :: b = (a ++ p :: c) ++ [.sentinel] := by rw [hc]; simp
  have hinsert : a ++ p :: t :: q :: b = (a ++ p :: t :: c) ++ [.sentinel] := by rw [hc]; simp
  have hnodup := h.nodup
  have hsorted := h.sorted
  have hdeleted := h.deletedHead
  have hhead := h.head
  rw [hlist'] at hnodup hsorted hdeleted hhead ht hasymm
  have htall : t ∉ a ++ p :: q :: b := by
    rw [htail]
    intro hmem
    rcases List.mem_append.mp hmem with hmem | hmem
    · exact ht hmem
    · exact hts (by simpa using hmem)
  refine ⟨_, a ++ p :: t :: c, hcomp, ?_, ?_⟩
  · refine ⟨?_, ?_, ?_, ?_, ?_⟩
    · rw [← hinsert]
      refine Linked.insert ?_ (htail ▸ hnodup) htall
      rw [← hsplit]
      exact hlinked
    · cases a <;> simpa using hhead
    · rw [← hinsert]
      rw [← htail] at hnodup
      have hmove : a ++ p :: t :: q :: b = (a ++ [p]) ++ t :: (q :: b) := by simp
      rw [hmove, List.nodup_middle, List.nodup_cons]
      exact ⟨by simpa using htall, by simpa using hnodup⟩
    · have hdt : ¬ TimerId.deleted = t := htd.symm
      cases a <;> simp_all
    · simp only
      refine List.isChain_append_cons_cons.mpr ⟨?_, ?_, ?_⟩
      · have : a ++ p :: c = (a ++ [p]) ++ c := by simp
        rw [this] at hsorted
        exact hsorted.left_of_append
      · rw [hw]; exact hp
      · refine List.isChain_cons.mpr ⟨?_, (hsorted.right_of_append).tail⟩
        intro y hy
        rw [hw]
        cases c with
        | nil => cases hy
        | cons y' c =>
          simp only [List.head?_cons, Option.mem_def, Option.some.injEq] at hy
          subst hy
          simp only [List.cons_append, List.cons.injEq] at hc
          obtain ⟨rfl, -⟩ := hc
          exact hasymm q (by simp) hq
  · intro x
    rw [hlist']
    simp only [List.mem_append, List.mem_cons]
    tauto

/-- Taking out a timer that is not the first one, if it is on the list. -/
theorem unlink {del : TimerId} (h : TimerList s l) (hdel : s.timerList ≠ del)
    (hds : del ≠ .sentinel) (hwin : ∀ x ∈ l, Within base (s.waketime x)) :
    ∃ next l',
      Computes (fun fuel => unlinkTimer fuel s.timerList del s) { s with next := next } ∧
      TimerList { s with next := next } l' ∧ ∀ x, x ∈ l' ↔ x ∈ l ∧ x ≠ del := by
  obtain ⟨rest, rfl⟩ : ∃ rest, l = s.timerList :: rest := by
    have hhead := h.head
    cases l with
    | nil => cases hhead
    | cons y rest =>
      simp only [List.head?_cons, Option.some.injEq] at hhead
      exact ⟨rest, by rw [hhead]⟩
  have hall : Linked s.next ([] ++ s.timerList :: (rest ++ [.sentinel])) := h.linked
  rcases unlinkTimer_computes del [] hall with ⟨hmem, hcomp⟩ |
    ⟨a, p, b, hsplit, hcomp⟩
  · refine ⟨s.next, s.timerList :: rest, hcomp, h, fun x => ⟨fun hx => ⟨hx, ?_⟩, fun hx => hx.1⟩⟩
    rintro rfl
    rcases List.mem_cons.mp hx with hx | hx
    · exact hdel hx.symm
    · exact hmem (by simp [hx])
  · have hwhole : (s.timerList :: rest) ++ [.sentinel] = (a ++ [p]) ++ del :: b := by
      rw [List.nil_append] at hsplit
      rw [List.cons_append, hsplit]; simp
    obtain ⟨c, hc, hlist⟩ := split_sentinel hwhole
    obtain ⟨d, rfl, hb⟩ : ∃ d, c = del :: d ∧ b = d ++ [.sentinel] := by
      cases c with
      | nil => simp only [List.nil_append, List.cons.injEq] at hc; exact absurd hc.1 hds
      | cons y d =>
        simp only [List.cons_append, List.cons.injEq] at hc
        exact ⟨d, by rw [hc.1], hc.2⟩
    have hlist' : s.timerList :: rest = a ++ p :: del :: d := by rw [hlist]; simp
    have hlinked := h.linked
    have hnodup := h.nodup
    have hhead := h.head
    have hdeleted := h.deletedHead
    have hsub : (a ++ p :: d).Sublist (a ++ p :: del :: d) :=
      (List.Sublist.refl a).append ((List.sublist_cons_self del d).cons_cons p)
    have hremoved : (a ++ p :: d) ++ [.sentinel] = a ++ p :: b := by rw [hb]; simp
    have hpair := (sorted_iff_pairwise hwin).mp h.sorted
    rw [hlist'] at hlinked hnodup hhead hdeleted hwin hpair
    have hfull : (a ++ p :: del :: d) ++ [.sentinel] = a ++ p :: del :: b := by rw [hb]; simp
    refine ⟨_, a ++ p :: d, hcomp, ⟨?_, ?_, ?_, ?_, ?_⟩, ?_⟩
    · rw [hremoved]
      exact Linked.remove (hfull ▸ hlinked) (hfull ▸ hnodup)
    · cases a <;> simpa using hhead
    · exact hnodup.sublist (hsub.append (List.Sublist.refl _))
    · cases a <;> simp_all
    · exact (sorted_iff_pairwise fun x hx => hwin x (hsub.subset hx)).mpr (hpair.sublist hsub)
    · intro x
      rw [hlist']
      have hnodup' := (List.nodup_append.mp hnodup).1
      constructor
      · intro hx
        refine ⟨hsub.subset hx, ?_⟩
        rintro rfl
        have hmove : a ++ p :: x :: d = (a ++ [p]) ++ x :: d := by simp
        rw [hmove, List.nodup_middle, List.nodup_cons] at hnodup'
        exact hnodup'.1 (by simpa using hx)
      · rintro ⟨hx, hne⟩
        simp only [List.mem_append, List.mem_cons] at hx ⊢
        tauto

end TimerList

end FlsunT1.Mcu
