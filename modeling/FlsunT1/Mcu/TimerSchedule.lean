/-
  Mcu/TimerSchedule.lean --- the timer list against the agenda of the timers.

  The agenda says which timers are active and when they are to run, and nothing
  about lists.  Each operation on the list is matched by one on the agenda, and
  the list keeps holding exactly the active timers, in order.
-/
import FlsunT1.Library.Run
import FlsunT1.Mcu.TimerList

set_option autoImplicit false

namespace FlsunT1.Mcu

open FlsunT1.Library

/-! ## The agenda -/

/-- The active timers with the clocks at which they are to run. -/
abbrev Agenda := TimerId → Option Int

/-- The operations on timers. -/
inductive TimerOp
  | add (n : Nat) (waketime now : Int)
  | del (n : Nat)
  | dispatch (now : Int) (callback : Callback)
  | shutdown
  deriving DecidableEq, Repr

/-- The agenda without the timers a callback deletes. -/
def Agenda.without (a : Agenda) (deletes : List Nat) : Agenda :=
  deletes.foldl (fun a d => Function.update a (.user d) none) a

/-- The agenda after the timer `t` ran. -/
def Agenda.ran (ticks : Int) (callback : Callback) (a : Agenda) : TimerId → Agenda
  | .periodic =>
      Function.update a .periodic ((a .periodic).map fun v => u32 (v + ticks))
  | .sentinel | .deleted => a
  | .user n =>
      Function.update (a.without callback.deletes) (.user n)
        (match callback.result with
          | .done => none
          | .reschedule => some (u32 callback.waketime))

/-- The timers in memory together with the agenda. -/
structure TimerWorld where
  sched : Sched
  agenda : Agenda

namespace TimerWorld

/-- Before the first timer is added only the periodic timer is active. -/
def init : TimerWorld where
  sched := .init
  agenda := fun t => if t = .periodic then some 0 else none

/-- The agenda after an operation. -/
def agendaAfter (ticks : Int) (w : TimerWorld) : TimerOp → Agenda
  | .add n waketime _ => Function.update w.agenda (.user n) (some (u32 waketime))
  | .del n => Function.update w.agenda (.user n) none
  | .dispatch _ callback => w.agenda.ran ticks callback w.sched.timerList
  | .shutdown => fun t => if t = .periodic then w.agenda t else none

/-- The timers in memory after an operation. -/
def schedAfter (fuel : Nat) (ticks : Int) (w : TimerWorld) : TimerOp → Option Sched
  | .add n waketime now =>
      schedAddTimer fuel now (.user n)
        { w.sched with
          waketime := Function.update w.sched.waketime (.user n) (u32 waketime) }
  | .del n => schedDelTimer fuel (.user n) w.sched
  | .dispatch _ callback => (schedTimerDispatch fuel ticks callback w.sched).map Prod.fst
  | .shutdown => some (runShutdown w.sched)

/-- One operation, with fuel for its loops. -/
def next (fuel : Nat) (ticks : Int) (w : TimerWorld) (op : TimerOp) : Option TimerWorld :=
  (w.schedAfter fuel ticks op).map fun s => { sched := s, agenda := w.agendaAfter ticks op }

/-- What the callers keep to: a timer is added while it is not active, a dispatch
happens when the first timer is due, and a callback deletes other timers only. -/
def allowed (w : TimerWorld) : TimerOp → Prop
  | .add n _ _ => w.agenda (.user n) = none
  | .dispatch now callback =>
      ¬ timerIsBefore now (w.sched.waketime w.sched.timerList) ∧
        ∀ d ∈ callback.deletes, w.sched.timerList ≠ .user d
  | _ => True

/-- The waketimes of the active timers after the operation, and that of
`deleted_timer` while it is on the list, are within `2^31` ticks of each other. -/
def fits (ticks : Int) (w : TimerWorld) (op : TimerOp) : Prop :=
  ∃ base, (∀ t v, w.agendaAfter ticks op t = some v → Within base v) ∧
    (w.sched.timerList = .deleted → Within base (w.sched.waketime .deleted))

/-- The firmware refuses a timer that would be the first and is already late. -/
def tooClose (w : TimerWorld) : TimerOp → Prop
  | .add _ waketime now =>
      timerIsBefore (u32 waketime) (w.sched.waketime w.sched.timerList) ∧
        timerIsBefore (u32 waketime) now ∧ w.sched.shutdownStatus = 0
  | _ => False

end TimerWorld

/-- Runs of the timer operations, where `ticks` is `timer_from_us(100000)`. -/
def TimerRun (ticks : Int) : TimerWorld → List TimerOp → TimerWorld → Prop :=
  Run fun w op w' => w.allowed op ∧ w.fits ticks op ∧ ∃ fuel, w.next fuel ticks op = some w'

/-! ## The invariant -/

/-- The list `l` of the timers in memory agrees with the agenda. -/
structure Listed (s : Sched) (a : Agenda) (l : List TimerId) : Prop where
  list : TimerList s l
  mem : ∀ x, x ≠ .deleted → (x ∈ l ↔ (a x).isSome)
  inactive : a .deleted = none
  waketime : ∀ x v, a x = some v → s.waketime x = v
  sentinel : s.waketime .sentinel = u32 (s.waketime .periodic + 0x80000000)
  periodic : .periodic ∈ l
  lastInsert : s.lastInsert ∈ l ∧ s.lastInsert ≠ .deleted
  window : ∃ base, ∀ x ∈ l, Within base (s.waketime x)

theorem Listed.init : Listed Sched.init TimerWorld.init.agenda [.periodic] where
  list :=
    { linked := ⟨by simp [Sched.init], by simp [Sched.init]⟩
      head := rfl
      nodup := by decide
      deletedHead := by simp
      sorted := List.isChain_singleton _ }
  mem := by
    intro x _
    cases x <;> simp [TimerWorld.init]
  inactive := by simp [TimerWorld.init]
  waketime := by
    intro x v hx
    simp only [TimerWorld.init] at hx
    split at hx
    · rename_i h; subst h; cases hx; rfl
    · cases hx
  sentinel := by simp [Sched.init, u32]
  periodic := by simp
  lastInsert := by simp [Sched.init]
  window := ⟨0, by simp [Sched.init, Within, u32]⟩

namespace Listed

variable {s : Sched} {a : Agenda} {l rest : List TimerId}

theorem eq_cons (h : Listed s a l) : ∃ rest, l = s.timerList :: rest := by
  have hhead := h.list.head
  cases l with
  | nil => cases hhead
  | cons y rest =>
    simp only [List.head?_cons, Option.some.injEq] at hhead
    exact ⟨rest, by rw [hhead]⟩

theorem del {n : Nat} (h : Listed s a l) :
    ∃ s' l', Computes (fun fuel => schedDelTimer fuel (.user n) s) s' ∧
      Listed s' (Function.update a (.user n) none) l' ∧
      (s.timerList ≠ .user n → s'.timerList = s.timerList) := by
  obtain ⟨base, hwin⟩ := h.window
  by_cases hhead : s.timerList = .user n
  · -- the first timer is replaced by `deleted_timer`
    obtain ⟨rest, rfl⟩ := h.eq_cons
    rw [hhead] at h hwin
    have hlinked := h.list.linked
    have hnodup := h.list.nodup
    have hsorted := h.list.sorted
    have hdeleted : .deleted ∉ rest := h.list.deletedHead
    have hnotin : .user n ∉ rest := by
      have := (List.nodup_append.mp hnodup).1
      exact (List.nodup_cons.mp this).1
    have hne : ∀ x ∈ rest, x ≠ .deleted := fun x hx heq => hdeleted (heq ▸ hx)
    have hperiodic : .periodic ∈ rest := by simpa using h.periodic
    refine ⟨_, .deleted :: rest, by simp only [schedDelTimer, hhead, if_true]; exact .pure _,
      ⟨⟨?_, rfl, ?_, hdeleted, ?_⟩, ?_, by simpa using h.inactive, ?_, by simpa using h.sentinel,
        by simp [hperiodic], ?_, base, ?_⟩, fun hneq => absurd hhead hneq⟩
    · exact Linked.replace_head hlinked (by simp [hdeleted])
    · simp only [List.cons_append, List.nodup_cons] at hnodup ⊢
      exact ⟨by simp [hdeleted], hnodup.2⟩
    · rw [List.isChain_cons] at hsorted ⊢
      refine ⟨fun y hy => ?_, hsorted.2.imp_of_mem_imp fun x y hx hy hxy => ?_⟩
      · simpa [hne y (List.mem_of_mem_head? hy)] using hsorted.1 y hy
      · simpa [hne x hx, hne y hy] using hxy
    · intro x hx
      by_cases hxn : x = .user n
      · simp [hxn, hnotin]
      · have := h.mem x hx
        simp only [List.mem_cons, hxn, false_or] at this
        simp [hx, hxn, this]
    · intro x v hx
      by_cases hxn : x = .user n
      · simp [hxn] at hx
      · have hxd : x ≠ .deleted := by
          rintro rfl
          rw [Function.update_of_ne hxn, h.inactive] at hx
          cases hx
        rw [Function.update_of_ne hxn] at hx
        simpa [hxd] using h.waketime x v hx
    · have hlast := h.lastInsert
      simp only
      split
      · exact ⟨by simp [hperiodic], by simp⟩
      · rename_i hlastne
        have : s.lastInsert ∈ rest := by simpa [hlastne] using hlast.1
        exact ⟨by simp [this], hlast.2⟩
    · intro x hx
      rcases List.mem_cons.mp hx with rfl | hx
      · simpa using hwin (.user n) (by simp)
      · simpa [hne x hx] using hwin x (by simp [hx])
  · obtain ⟨nxt, l', hcomp, hlist, hmem⟩ := h.list.unlink hhead (by simp) hwin
    have hperiodic : .periodic ∈ l' := (hmem _).mpr ⟨h.periodic, by simp⟩
    refine ⟨{ s with
        next := nxt
        lastInsert := if s.lastInsert = .user n then .periodic else s.lastInsert }, l', ?_,
      ⟨⟨hlist.linked, hlist.head, hlist.nodup, hlist.deletedHead, hlist.sorted⟩,
      ?_, by simpa using h.inactive, ?_, h.sentinel, hperiodic, ?_, base, ?_⟩, fun _ => ?_⟩
    · simp only [schedDelTimer, hhead, if_false]
      exact hcomp.map _
    · intro x hx
      rw [hmem]
      by_cases hxn : x = .user n
      · simp [hxn]
      · simp [hxn, h.mem x hx]
    · intro x v hx
      by_cases hxn : x = .user n
      · simp [hxn] at hx
      · rw [Function.update_of_ne hxn] at hx
        exact h.waketime x v hx
    · simp only
      split
      · exact ⟨hperiodic, by simp⟩
      · rename_i hlastne
        exact ⟨(hmem _).mpr ⟨h.lastInsert.1, hlastne⟩, h.lastInsert.2⟩
    · exact fun x hx => hwin x ((hmem x).mp hx).1
    · rfl

theorem dels {deletes : List Nat} :
    ∀ {s : Sched} {a : Agenda} {l : List TimerId}, Listed s a l →
      (∀ d ∈ deletes, s.timerList ≠ .user d) →
      ∃ s' l', Computes
          (fun fuel => deletes.foldlM (fun s d => schedDelTimer fuel (.user d) s) s) s' ∧
        Listed s' (a.without deletes) l' ∧ s'.timerList = s.timerList := by
  induction deletes with
  | nil => exact fun h _ => ⟨_, _, .pure _, h, rfl⟩
  | cons d deletes ih =>
    intro s a l h hne
    obtain ⟨s1, l1, hcomp1, h1, hhead1⟩ := h.del (n := d)
    have hhead := hhead1 (hne d (by simp))
    obtain ⟨s2, l2, hcomp2, h2, hhead2⟩ :=
      ih h1 fun d' hd' => by rw [hhead]; exact hne d' (by simp [hd'])
    refine ⟨s2, l2, ?_, h2, hhead2.trans hhead⟩
    simp only [List.foldlM_cons]
    exact hcomp1.bind hcomp2

theorem pop {t : TimerId} (wk : TimerId → Int) (h : Listed s a (t :: rest)) (ht : t ≠ .periodic)
    (hwk : ∀ x, x ≠ t → wk x = s.waketime x) :
    ∃ s', Computes (fun fuel => updateTimerList fuel t { s with waketime := wk } .done)
        (s', s'.waketime s'.timerList) ∧
      Listed s' (Function.update a t none) rest := by
  obtain ⟨base, hwin⟩ := h.window
  have hnodup := h.list.nodup_list
  have hperiodic : .periodic ∈ rest := by simpa [Ne.symm ht] using h.periodic
  obtain ⟨q, rest, rfl⟩ : ∃ q rest', rest = q :: rest' := by
    cases rest with
    | nil => cases hperiodic
    | cons q rest' => exact ⟨q, rest', rfl⟩
  have hnext : s.next t = some q := h.list.linked.next_eq (a := [])
  have hdeleted : .deleted ∉ q :: rest := h.list.deletedHead
  have hne : ∀ x ∈ q :: rest, x ≠ t := fun x hx heq =>
    (List.nodup_cons.mp hnodup).1 (heq ▸ hx)
  refine ⟨{ s with
      waketime := wk
      timerList := q
      lastInsert := if s.lastInsert = t then q else s.lastInsert }, by
    simp only [updateTimerList, hnext]; exact .pure _, ⟨⟨?_, rfl, ?_, ?_, ?_⟩, ?_, ?_, ?_, ?_, hperiodic, ?_, base, ?_⟩⟩
  · exact h.list.linked.tail
  · exact h.list.nodup.tail
  · exact fun hmem => hdeleted (List.mem_of_mem_tail hmem)
  · refine h.list.sorted.tail.imp_of_mem_imp fun x y hx hy hxy => ?_
    simp only [hwk x (hne x hx), hwk y (hne y hy)]
    exact hxy
  · intro x hx
    by_cases hxt : x = t
    · have : t ∉ q :: rest := fun hmem => hne t hmem rfl
      simp [hxt, this]
    · have := h.mem x hx
      rw [List.mem_cons, or_iff_right hxt] at this
      rw [this, Function.update_of_ne hxt]
  · by_cases htd : .deleted = t
    · simp [htd]
    · simpa [htd] using h.inactive
  · intro x v hx
    by_cases hxt : x = t
    · simp [hxt] at hx
    · rw [Function.update_of_ne hxt] at hx
      rw [← h.waketime x v hx]
      exact hwk x hxt
  · have hts : .sentinel ≠ t := fun heq => h.list.sentinel_notMem (by simp [heq])
    simp only [hwk _ hts, hwk _ (Ne.symm ht), h.sentinel]
  · simp only
    split
    · exact ⟨by simp, fun heq => hdeleted (by simp [← heq])⟩
    · rename_i hlast
      exact ⟨by simpa [hlast] using h.lastInsert.1, h.lastInsert.2⟩
  · intro x hx
    simp only [hwk x (hne x hx)]
    exact hwin x (List.mem_cons_of_mem _ hx)

theorem stops {s : Sched} (pre : List TimerId) {post : List TimerId} {pos : TimerId} {base w : Int}
    (h : TimerList s (pre ++ pos :: post)) (hw : Within base w)
    (hwin : ∀ x ∈ pre ++ pos :: post, Within base (s.waketime x))
    (hpos : ¬ timerIsBefore w (s.waketime pos)) (hperiodic : .periodic ∈ pre ++ pos :: post)
    (hsentinel : s.waketime .sentinel = u32 (s.waketime .periodic + 0x80000000)) :
    ∃ z ∈ post ++ [.sentinel], timerIsBefore w (s.waketime z) := by
  by_cases hbefore : timerIsBefore w (s.waketime .periodic)
  · refine ⟨.periodic, ?_, hbefore⟩
    have hpair := (sorted_iff_pairwise hwin).mp h.sorted
    have hposMem : pos ∈ pre ++ pos :: post := by simp
    rw [hw.not_before_iff (hwin _ hposMem)] at hpos
    rw [hw.before_iff (hwin _ hperiodic)] at hbefore
    rcases List.mem_append.mp hperiodic with hmem | hmem
    · have := (List.pairwise_append.mp hpair).2.2 _ hmem pos (by simp)
      omega
    · rcases List.mem_cons.mp hmem with heq | hmem
      · rw [heq] at hbefore
        omega
      · simp [hmem]
  · exact ⟨.sentinel, by simp, by rw [hsentinel]; exact before_opposite hbefore⟩

/-- A list that holds a timer besides the others agrees with the agenda in which
that timer is active. -/
theorem enlist {s' : Sched} {l' : List TimerId} {t : TimerId} {w : Int}
    (hlist : TimerList s' l') (hmem : ∀ x, x ≠ .deleted → (x ∈ l' ↔ x = t ∨ x ∈ rest))
    (ht : t ≠ .deleted) (hrest : ∀ x, x ≠ .deleted → x ≠ t → (x ∈ rest ↔ (a x).isSome))
    (hinactive : a .deleted = none) (hwake : ∀ x v, x ≠ t → a x = some v → s'.waketime x = v)
    (hw : s'.waketime t = w)
    (hsentinel : s'.waketime .sentinel = u32 (s'.waketime .periodic + 0x80000000))
    (hperiodic : .periodic = t ∨ .periodic ∈ rest)
    (hlast : (s'.lastInsert = t ∨ s'.lastInsert ∈ rest) ∧ s'.lastInsert ≠ .deleted)
    (hwin : ∃ base, ∀ x ∈ l', Within base (s'.waketime x)) :
    Listed s' (Function.update a t (some w)) l' where
  list := hlist
  mem := by
    intro x hx
    rw [hmem x hx]
    by_cases hxt : x = t
    · simp [hxt]
    · simp [hxt, hrest x hx hxt]
  inactive := by simpa [Ne.symm ht] using hinactive
  waketime := by
    intro x v hx
    by_cases hxt : x = t
    · subst hxt
      rw [Function.update_self, Option.some.injEq] at hx
      rw [hw, hx]
    · rw [Function.update_of_ne hxt] at hx
      exact hwake x v hxt hx
  sentinel := hsentinel
  periodic := (hmem _ (by simp)).mpr hperiodic
  lastInsert := ⟨(hmem _ hlast.2).mpr hlast.1, hlast.2⟩
  window := hwin

/-- A timer that is rescheduled stays first, or is inserted again behind. -/
theorem reschedule {t : TimerId} (wk : TimerId → Int) {w : Int} (h : Listed s a (t :: rest))
    (htd : t ≠ .deleted) (hwk : ∀ x, x ≠ t → x ≠ .sentinel → wk x = s.waketime x)
    (hw : wk t = w) (hsentinel : wk .sentinel = u32 (wk .periodic + 0x80000000))
    (hfit : ∃ base, Within base w ∧ ∀ x ∈ rest, Within base (s.waketime x)) :
    ∃ r l', Computes (fun fuel => updateTimerList fuel t { s with waketime := wk } .reschedule) r ∧
      Listed r.1 (Function.update a t (some w)) l' ∧ r.2 = r.1.waketime r.1.timerList := by
  obtain ⟨base, hwin, hwins⟩ := hfit
  have hnodup := h.list.nodup_list
  have hdeleted : .deleted ∉ rest := h.list.deletedHead
  have hts : t ≠ .sentinel := fun heq => h.list.sentinel_notMem (by simp [heq])
  have hrestSentinel : .sentinel ∉ rest := fun hmem =>
    h.list.sentinel_notMem (List.mem_cons_of_mem _ hmem)
  have hne : ∀ x ∈ rest, x ≠ t := fun x hx heq => (List.nodup_cons.mp hnodup).1 (heq ▸ hx)
  have hwk' : ∀ x ∈ rest, wk x = s.waketime x := fun x hx =>
    hwk x (hne x hx) fun heq => hrestSentinel (heq ▸ hx)
  have hwins' : ∀ x ∈ rest, Within base (wk x) := fun x hx => hwk' x hx ▸ hwins x hx
  have hrest : ∀ x, x ≠ .deleted → x ≠ t → (x ∈ rest ↔ (a x).isSome) := by
    intro x hx hxt
    rw [← h.mem x hx, List.mem_cons, or_iff_right hxt]
  have hwake : ∀ x v, x ≠ t → a x = some v → wk x = v := by
    intro x v hxt hx
    have hxd : x ≠ .deleted := by
      rintro rfl
      rw [h.inactive] at hx
      cases hx
    rw [hwk' x ((hrest x hxd hxt).mpr (by simp [hx]))]
    exact h.waketime x v hx
  have hsorted : rest.IsChain fun x y => ¬ timerIsBefore (wk y) (wk x) :=
    h.list.sorted.tail.imp_of_mem_imp fun x y hx hy hxy => by rw [hwk' x hx, hwk' y hy]; exact hxy
  obtain ⟨q, tail, hq⟩ : ∃ q tail, rest ++ [.sentinel] = q :: tail := by
    cases rest with
    | nil => exact ⟨_, _, rfl⟩
    | cons q tail => exact ⟨_, _, rfl⟩
  have hlinked := h.list.linked
  rw [List.cons_append, hq] at hlinked
  have hnext : s.next t = some q := hlinked.next_eq (a := [])
  have hperiodic : .periodic = t ∨ .periodic ∈ rest := List.mem_cons.mp h.periodic
  by_cases hbefore : timerIsBefore w (wk q)
  · refine ⟨({ s with waketime := wk }, w), t :: rest, ?_, enlist ?_ (by simp) htd hrest h.inactive
      hwake hw hsentinel hperiodic ⟨List.mem_cons.mp h.lastInsert.1, h.lastInsert.2⟩
      ⟨base, ?_⟩, ?_⟩
    · simp only [updateTimerList, hnext, hw, hbefore, if_true]
      exact .pure _
    · refine ⟨h.list.linked, h.list.head, h.list.nodup, h.list.deletedHead,
        List.isChain_cons.mpr ⟨fun y hy => ?_, hsorted⟩⟩
      have hyrest := List.mem_of_mem_head? hy
      have hyq : y = q := by
        cases rest with
        | nil => cases hy
        | cons z rest =>
          simp only [List.cons_append, List.cons.injEq] at hq
          simp only [List.head?_cons, Option.mem_def, Option.some.injEq] at hy
          rw [← hy, hq.1]
      simp only [hw]
      exact hwin.asymm (hwins' y hyrest) (hyq ▸ hbefore)
    · intro x hx
      rcases List.mem_cons.mp hx with rfl | hx
      · simpa only [hw] using hwin
      · exact hwins' x hx
    · have hhead := h.list.head
      simp only [List.head?_cons, Option.some.injEq] at hhead
      simp only [← hhead, hw]
  · -- the timer is no longer the first one
    obtain ⟨rest', rfl⟩ : ∃ rest', rest = q :: rest' := by
      cases rest with
      | nil =>
        simp only [List.nil_append, List.cons.injEq] at hq
        have htp : .periodic = t := by simpa using h.periodic
        rw [← hq.1, hsentinel, htp, hw] at hbefore
        exact absurd (before_opposite (timerIsBefore_irrefl w)) hbefore
      | cons z rest' =>
        simp only [List.cons_append, List.cons.injEq] at hq
        exact ⟨rest', by rw [hq.1]⟩
    have hlist : TimerList { s with waketime := wk, timerList := q } (q :: rest') :=
      ⟨h.list.linked.tail, rfl, h.list.nodup.tail,
        fun hmem => hdeleted (List.mem_of_mem_tail hmem), hsorted⟩
    have htnot : t ∉ q :: rest' := fun hmem => hne t hmem rfl
    have hasymm : ∀ x ∈ q :: rest', timerIsBefore w (wk x) → ¬ timerIsBefore (wk x) w :=
      fun x hx => hwin.asymm (hwins' x hx)
    -- wherever the search starts on the rest of the list, it finds the place
    have hsearch : ∀ pos ∈ q :: rest', ¬ timerIsBefore w (wk pos) →
        ∃ nxt l', Computes (fun fuel =>
            insertTimer fuel pos t w { s with waketime := wk, timerList := q })
            { s with waketime := wk, timerList := q, next := nxt } ∧
          TimerList { s with waketime := wk, timerList := q, next := nxt } l' ∧
          ∀ x, x ∈ l' ↔ x = t ∨ x ∈ q :: rest' := by
      intro pos hpos hposBefore
      obtain ⟨pre, post, hsplit⟩ := List.append_of_mem hpos
      refine hlist.insert hsplit htnot hts htd hw hposBefore ?_ hasymm
      rcases hperiodic with hp | hp
      · refine ⟨.sentinel, by simp, ?_⟩
        simp only [hsentinel, hp, hw]
        exact before_opposite (timerIsBefore_irrefl w)
      · rw [hsplit] at hp hlist hwins'
        exact stops _ hlist hwin hwins' hposBefore hp hsentinel
    obtain ⟨nxt, l', hcomp, hlist', hmem⟩ : ∃ nxt l', Computes (fun fuel =>
            insertTimer fuel
              (if timerIsBefore w (wk s.lastInsert) then q else s.lastInsert) t w
              { s with waketime := wk, timerList := q })
            { s with waketime := wk, timerList := q, next := nxt } ∧
          TimerList { s with waketime := wk, timerList := q, next := nxt } l' ∧
          ∀ x, x ∈ l' ↔ x = t ∨ x ∈ q :: rest' := by
      split
      · exact hsearch q (by simp) hbefore
      · rename_i hlast
        rcases List.mem_cons.mp h.lastInsert.1 with heq | hmem
        · -- `last_insert` is the timer itself, which still points into the list
          obtain ⟨nxt, l', hcomp, hrest'⟩ := hsearch q (by simp) hbefore
          refine ⟨nxt, l', ?_, hrest'⟩
          refine Computes.succ rfl (fun n => ?_) hcomp
          simp only [insertTimer, heq, hnext, hbefore, if_false]
        · exact hsearch _ hmem hlast
    refine ⟨({ s with waketime := wk, timerList := q, next := nxt, lastInsert := t }, wk q), l', ?_,
      enlist ⟨hlist'.linked, hlist'.head, hlist'.nodup, hlist'.deletedHead, hlist'.sorted⟩
        (fun x _ => hmem x) htd hrest h.inactive hwake hw hsentinel hperiodic ⟨.inl rfl, htd⟩
        ⟨base, ?_⟩, rfl⟩
    · simp only [updateTimerList, hnext, hw, hbefore, if_false]
      exact hcomp.map _
    · intro x hx
      rcases (hmem x).mp hx with rfl | hx
      · simpa only [hw] using hwin
      · exact hwins' x hx

/-- The list a new first timer is put in front of: `deleted_timer` gives up its
place when it has one. -/
theorem behindDeleted (h : Listed s a l) (t : TimerId) :
    ∃ z tl,
      (if s.timerList = .deleted then Function.update s.next t (s.next .deleted)
        else Function.update s.next t (some s.timerList)) = Function.update s.next t (some z) ∧
      Linked s.next (z :: (tl ++ [.sentinel])) ∧ ((z :: tl) ++ [TimerId.sentinel]).Nodup ∧
      .deleted ∉ z :: tl ∧
      ((z :: tl).IsChain fun x y => ¬ timerIsBefore (s.waketime y) (s.waketime x)) ∧
      ∀ x, x ≠ .deleted → (x ∈ z :: tl ↔ x ∈ l) := by
  obtain ⟨rest, rfl⟩ := h.eq_cons
  by_cases hd : s.timerList = .deleted
  · rw [hd] at h ⊢
    have hperiodic : .periodic ∈ rest := by simpa using h.periodic
    obtain ⟨z, tl, rfl⟩ : ∃ z tl, rest = z :: tl := by
      cases rest with
      | nil => cases hperiodic
      | cons z tl => exact ⟨z, tl, rfl⟩
    refine ⟨z, tl, ?_, h.list.linked.tail, h.list.nodup.tail, h.list.deletedHead,
      h.list.sorted.tail, ?_⟩
    · rw [if_pos rfl, h.list.linked.next_eq (a := [])]
    · intro x hx
      rw [List.mem_cons (b := TimerId.deleted), or_iff_right hx]
  · refine ⟨s.timerList, rest, if_neg hd, h.list.linked, h.list.nodup, ?_, h.list.sorted,
      fun _ _ => Iff.rfl⟩
    have hdel := h.list.deletedHead
    simpa [Ne.symm hd] using hdel

/-- Adding a timer that is not active: too late for the firmware, or listed. -/
theorem add {n : Nat} {w : Int} (now : Int) (h : Listed s a l) (hnew : a (.user n) = none)
    (hfit : ∃ base, Within base w ∧ ∀ x ∈ l, Within base (s.waketime x)) :
    (timerIsBefore w (s.waketime s.timerList) ∧ timerIsBefore w now ∧ s.shutdownStatus = 0 ∧
        ∀ fuel, schedAddTimer fuel now (.user n)
          { s with waketime := Function.update s.waketime (.user n) w } = none) ∨
      ∃ s' l', Computes (fun fuel => schedAddTimer fuel now (.user n)
            { s with waketime := Function.update s.waketime (.user n) w }) s' ∧
        Listed s' (Function.update a (.user n) (some w)) l' := by
  obtain ⟨base, hwin, hwins⟩ := hfit
  have hnot : .user n ∉ l := by simp [h.mem, hnew]
  have hlist := h.list.update_waketime (w := w) hnot
  have hmemNe : ∀ x ∈ l, x ≠ .user n := fun x hx heq => hnot (heq ▸ hx)
  have hrest : ∀ x, x ≠ .deleted → x ≠ .user n → (x ∈ l ↔ (a x).isSome) :=
    fun x hx _ => h.mem x hx
  obtain ⟨rest, hl⟩ := h.eq_cons
  have hheadMem : s.timerList ∈ l := by simp [hl]
  by_cases hbefore : timerIsBefore w (s.waketime s.timerList)
  · by_cases hclose : timerIsBefore w now ∧ s.shutdownStatus = 0
    · refine .inl ⟨hbefore, hclose.1, hclose.2, fun fuel => ?_⟩
      simp [schedAddTimer, hmemNe _ hheadMem, hbefore, hclose]
    right
    -- the timer comes first, behind `deleted_timer`
    have hlate : ∀ x ∈ l, ¬ timerIsBefore (s.waketime x) w := fun x hx => by
      have hhead := h.list.head_earliest hwins hx
      rw [(hwins x hx).not_before_iff (hwins _ hheadMem)] at hhead
      rw [(hwins x hx).not_before_iff hwin]
      have := (hwin.before_iff (hwins _ hheadMem)).mp hbefore
      omega
    obtain ⟨z, tl, hnext, hlinked, hnodup, hdeleted, hsorted, hmem⟩ := h.behindDeleted (.user n)
    have hznot : .user n ∉ z :: tl := fun hin => hnot ((hmem _ (by simp)).mp hin)
    have hne : ∀ x ∈ z :: tl, x ≠ .deleted := fun x hx heq => hdeleted (heq ▸ hx)
    have hne' : ∀ x ∈ z :: tl, x ≠ .user n := fun x hx heq => hznot (heq ▸ hx)
    have hinl : ∀ x ∈ z :: tl, x ∈ l := fun x hx => (hmem x (hne x hx)).mp hx
    refine ⟨{ s with
        next := Function.update (Function.update s.next (.user n) (some z)) .deleted
          (some (.user n))
        waketime := Function.update (Function.update s.waketime (.user n) w) .deleted w
        timerList := .deleted }, .deleted :: .user n :: z :: tl, ?_,
      enlist ⟨?_, ?_, ?_, ?_, ?_⟩ ?_ (by simp) hrest h.inactive ?_ ?_ ?_ (.inr h.periodic)
        ⟨.inr h.lastInsert.1, h.lastInsert.2⟩ ⟨base, ?_⟩⟩
    · simp only [schedAddTimer, Function.update_self, Function.update_of_ne (hmemNe _ hheadMem),
        hbefore, if_true, hclose, if_false, hnext]
      exact .pure _
    · have hznot' : .user n ∉ z :: (tl ++ [.sentinel]) := by simpa using hznot
      have hdeleted' : .deleted ∉ .user n :: z :: (tl ++ [.sentinel]) := by simpa using hdeleted
      exact Linked.push (Linked.push hlinked hznot') hdeleted'
    · rfl
    · simp only [List.cons_append, List.nodup_cons] at hnodup ⊢
      refine ⟨?_, ?_, hnodup⟩
      · simpa using hdeleted
      · simpa using hznot
    · simpa using hdeleted
    · refine List.isChain_cons_cons.mpr ⟨?_, List.isChain_cons_cons.mpr ⟨?_, ?_⟩⟩
      · simpa using timerIsBefore_irrefl w
      · simpa [hne z (by simp), hne' z (by simp)] using hlate z (hinl z (by simp))
      · refine hsorted.imp_of_mem_imp fun x y hx hy hxy => ?_
        simpa [hne x hx, hne' x hx, hne y hy, hne' y hy] using hxy
    · intro x hx
      rw [List.mem_cons, List.mem_cons, hmem x hx, or_iff_right hx]
    · intro x v hx hv
      have hxd : x ≠ .deleted := by
        rintro rfl
        rw [h.inactive] at hv
        cases hv
      simpa [hx, hxd] using h.waketime x v hv
    · simp
    · simpa using h.sentinel
    · intro x hx
      rcases List.mem_cons.mp hx with rfl | hx
      · simpa using hwin
      rcases List.mem_cons.mp hx with rfl | hx
      · simpa using hwin
      · simpa [hne x hx, hne' x hx] using hwins x (hinl x hx)
  · right
    obtain ⟨nxt, l', hcomp, hlist', hmem⟩ := hlist.insert (t := .user n) (w := w)
      (show l = [] ++ s.timerList :: rest from hl) hnot (by simp) (by simp) (by simp)
      (by simpa [hmemNe _ hheadMem] using hbefore)
      (by
        have hwins' : ∀ x ∈ l, Within base (Function.update s.waketime (.user n) w x) :=
          fun x hx => by simpa [hmemNe x hx] using hwins x hx
        have hP := h.periodic
        rw [hl] at hwins' hP hlist
        exact stops [] hlist hwin hwins'
          (by simpa [hmemNe _ hheadMem] using hbefore) hP (by simpa using h.sentinel))
      (fun x hx => by simpa [hmemNe x hx] using hwin.asymm (hwins x hx))
    refine ⟨_, l', ?_, enlist hlist' (fun x _ => hmem x) (by simp) hrest h.inactive ?_
      (by simp) (by simpa using h.sentinel) (.inr h.periodic) ⟨.inr h.lastInsert.1, h.lastInsert.2⟩
      ⟨base, ?_⟩⟩
    · simpa [schedAddTimer, hmemNe _ hheadMem, hbefore] using hcomp
    · intro x v hx hv
      simpa [hx] using h.waketime x v hv
    · intro x hx
      rcases (hmem x).mp hx with rfl | hx
      · simpa using hwin
      · simpa [hmemNe x hx] using hwins x hx

/-- A dispatch of the first timer. -/
theorem dispatch {ticks : Int} {callback : Callback} (h : Listed s a l)
    (hothers : ∀ d ∈ callback.deletes, s.timerList ≠ .user d)
    (hfit : ∃ base, ∀ t v, a.ran ticks callback s.timerList t = some v → Within base v) :
    ∃ r l', Computes (fun fuel => schedTimerDispatch fuel ticks callback s) r ∧
      Listed r.1 (a.ran ticks callback s.timerList) l' ∧ r.2 = r.1.waketime r.1.timerList := by
  obtain ⟨base, hwin⟩ := hfit
  have hheadMem : s.timerList ∈ l := by
    obtain ⟨rest, hl⟩ := h.eq_cons
    simp [hl]
  cases hhead : s.timerList with
  | sentinel => exact absurd (hhead ▸ hheadMem) h.list.sentinel_notMem
  | deleted =>
    obtain ⟨rest, rfl⟩ := h.eq_cons
    rw [hhead] at h
    obtain ⟨s', hcomp, hlisted⟩ := h.pop s.waketime (by simp) fun _ _ => rfl
    have hsame : Function.update a .deleted none = a := by
      rw [← h.inactive, Function.update_eq_self]
    refine ⟨(s', s'.waketime s'.timerList), rest, ?_, by simpa [hsame, Agenda.ran] using hlisted,
      rfl⟩
    simp only [schedTimerDispatch, hhead, timerFunc, Option.bind_some]
    exact hcomp
  | periodic =>
    obtain ⟨rest, rfl⟩ := h.eq_cons
    rw [hhead] at h hwin hothers
    obtain ⟨v, hv⟩ := Option.isSome_iff_exists.mp ((h.mem .periodic (by simp)).mp h.periodic)
    have hwv := h.waketime _ _ hv
    have hran : a.ran ticks callback .periodic =
        Function.update a .periodic (some (u32 (v + ticks))) := by simp [Agenda.ran, hv]
    rw [hran] at hwin ⊢
    have hnodup := h.list.nodup_list
    obtain ⟨r, l', hcomp, hlisted, hr⟩ := h.reschedule (w := u32 (v + ticks))
      (periodicEvent ticks s).1.waketime (by simp)
      (fun x hx hxs => by simp [periodicEvent, hx, hxs]) (by simp [periodicEvent, hwv])
      (by simp [periodicEvent])
      ⟨base, hwin .periodic _ (by simp), fun x hx => by
        have hxp : x ≠ .periodic := fun heq => (List.nodup_cons.mp hnodup).1 (heq ▸ hx)
        have hxd : x ≠ .deleted := fun heq => h.list.deletedHead (heq ▸ hx)
        obtain ⟨u, hu⟩ := Option.isSome_iff_exists.mp
          ((h.mem x hxd).mp (List.mem_cons_of_mem _ hx))
        rw [h.waketime x u hu]
        exact hwin x u (by simpa [hxp] using hu)⟩
    refine ⟨r, l', ?_, hlisted, hr⟩
    simp only [schedTimerDispatch, hhead, timerFunc, Option.bind_some]
    exact hcomp
  | user n =>
    rw [hhead] at hwin hothers
    obtain ⟨s1, l1, hcomp, h1, hhead1⟩ := h.dels (by rw [hhead]; exact hothers)
    rw [hhead] at hhead1
    obtain ⟨rest, rfl⟩ := h1.eq_cons
    rw [hhead1] at h1
    have hnodup := h1.list.nodup_list
    have hran : a.ran ticks callback (.user n) = Function.update (a.without callback.deletes)
        (.user n) (match callback.result with
          | .done => none
          | .reschedule => some (u32 callback.waketime)) := rfl
    rw [hran] at hwin ⊢
    have hcall : Computes (fun fuel => timerFunc fuel ticks callback s (.user n))
        ({ s1 with
            waketime := Function.update s1.waketime (.user n) (u32 callback.waketime) },
          callback.result) := hcomp.map _
    have hdispatch : ∀ r, Computes (fun fuel => updateTimerList fuel (.user n)
          { s1 with
            waketime := Function.update s1.waketime (.user n) (u32 callback.waketime) }
          callback.result) r →
        Computes (fun fuel => schedTimerDispatch fuel ticks callback s) r := by
      intro r hr
      simp only [schedTimerDispatch, hhead]
      exact hcall.bind (g := fun fuel r => updateTimerList fuel (.user n) r.1 r.2) hr
    cases hres : callback.result with
    | done =>
      obtain ⟨s', hcomp', hlisted⟩ := h1.pop
        (Function.update s1.waketime (.user n) (u32 callback.waketime)) (by simp)
        fun x hx => by simp [hx]
      exact ⟨(s', s'.waketime s'.timerList), rest, hdispatch _ (hres ▸ hcomp'), hlisted, rfl⟩
    | reschedule =>
      rw [hres] at hwin
      obtain ⟨r, l', hcomp', hlisted, hr⟩ := h1.reschedule (w := u32 callback.waketime)
        (Function.update s1.waketime (.user n) (u32 callback.waketime)) (by simp)
        (fun x hx _ => by simp [hx]) (by simp) (by simpa using h1.sentinel)
        ⟨base, hwin (.user n) _ (by simp), fun x hx => by
          have hxn : x ≠ .user n := fun heq => (List.nodup_cons.mp hnodup).1 (heq ▸ hx)
          have hxd : x ≠ .deleted := fun heq => h1.list.deletedHead (heq ▸ hx)
          obtain ⟨u, hu⟩ := Option.isSome_iff_exists.mp
            ((h1.mem x hxd).mp (List.mem_cons_of_mem _ hx))
          rw [h1.waketime x u hu]
          exact hwin x u (by simpa [hxn] using hu)⟩
      exact ⟨r, l', hdispatch _ (hres ▸ hcomp'), hlisted, hr⟩

theorem shutdown (h : Listed s a l) :
    Listed (runShutdown s) (fun t => if t = .periodic then a t else none)
      [.deleted, .periodic] where
  list :=
    { linked := by
        refine Linked.cons_cons.mpr ⟨by simp [runShutdown, schedTimerReset], ?_⟩
        refine Linked.cons_cons.mpr ⟨by simp [runShutdown, schedTimerReset], ?_⟩
        refine ⟨List.isChain_singleton _, ?_⟩
        simpa [runShutdown, schedTimerReset] using h.list.linked.next_last
      head := rfl
      nodup := by decide
      deletedHead := by simp
      sorted := by
        simp [runShutdown, schedTimerReset, timerIsBefore_irrefl] }
  mem := by
    intro x hx
    have hp := (h.mem .periodic (by simp)).mp h.periodic
    by_cases hxp : x = .periodic
    · simp [hxp, hp]
    · simp [hx, hxp]
  inactive := if_neg (by simp)
  waketime := by
    intro x v hx
    split at hx
    · rename_i hxp
      subst hxp
      simpa [runShutdown, schedTimerReset] using h.waketime _ _ hx
    · cases hx
  sentinel := by simpa [runShutdown, schedTimerReset] using h.sentinel
  periodic := by simp
  lastInsert := by simp [runShutdown, schedTimerReset]
  window := by
    obtain ⟨base, hwin⟩ := h.window
    exact ⟨base, by simpa [runShutdown, schedTimerReset] using hwin _ h.periodic⟩

end Listed

/-! ## Whole runs -/

/-- One operation that is allowed and fits: the firmware refuses it as too late,
or it returns, and the list agrees with the agenda again. -/
theorem Listed.step {ticks : Int} {w : TimerWorld} {l : List TimerId} {op : TimerOp}
    (h : Listed w.sched w.agenda l) (hallowed : w.allowed op) (hfits : w.fits ticks op) :
    (w.tooClose op ∧ ∀ fuel, w.next fuel ticks op = none) ∨
      ∃ w' l', Computes (fun fuel => w.next fuel ticks op) w' ∧ Listed w'.sched w'.agenda l' := by
  obtain ⟨base, hafter, hmarker⟩ := hfits
  cases op with
  | add n waketime now =>
    have hfit : ∃ base, Within base (u32 waketime) ∧ ∀ x ∈ l, Within base (w.sched.waketime x) := by
      refine ⟨base, hafter (.user n) _ (by simp [TimerWorld.agendaAfter]), fun x hx => ?_⟩
      obtain ⟨rest, hl⟩ := h.eq_cons
      by_cases hxd : x = .deleted
      · subst hxd
        refine hmarker ?_
        have hdeleted := h.list.deletedHead
        rw [hl] at hx hdeleted
        rcases List.mem_cons.mp hx with heq | hx
        · exact heq.symm
        · exact absurd hx hdeleted
      · obtain ⟨v, hv⟩ := Option.isSome_iff_exists.mp ((h.mem x hxd).mp hx)
        rw [h.waketime x v hv]
        have hxn : x ≠ .user n := fun heq => by
          rw [heq, show w.agenda (.user n) = none from hallowed] at hv
          cases hv
        exact hafter x v (by simpa [TimerWorld.agendaAfter, hxn] using hv)
    rcases h.add now hallowed hfit with ⟨h1, h2, h3, hnone⟩ | ⟨s', l', hcomp, hlisted⟩
    · exact .inl ⟨⟨h1, h2, h3⟩, fun fuel => by
        simp only [TimerWorld.next, TimerWorld.schedAfter, hnone, Option.map_none]⟩
    · exact .inr ⟨_, l', hcomp.map _, hlisted⟩
  | del n =>
    obtain ⟨s', l', hcomp, hlisted, -⟩ := h.del (n := n)
    exact .inr ⟨_, l', hcomp.map _, hlisted⟩
  | dispatch now callback =>
    obtain ⟨r, l', hcomp, hlisted, -⟩ := h.dispatch hallowed.2 ⟨base, hafter⟩
    exact .inr ⟨_, l', (hcomp.map _).map _, hlisted⟩
  | shutdown => exact .inr ⟨_, _, .pure _, h.shutdown⟩

theorem TimerRun.listed {ticks : Int} {ops : List TimerOp} {w : TimerWorld}
    (hrun : TimerRun ticks .init ops w) : ∃ l, Listed w.sched w.agenda l := by
  refine hrun.invariant (P := fun w => ∃ l, Listed w.sched w.agenda l) ⟨_, .init⟩ ?_
  rintro w op w' ⟨l, h⟩ ⟨hallowed, hfits, fuel, hnext⟩
  rcases h.step hallowed hfits with ⟨-, hnone⟩ | ⟨v, l', hcomp, hlisted⟩
  · rw [hnone] at hnext
    cases hnext
  · exact ⟨l', hcomp.only fuel w' hnext ▸ hlisted⟩

/-- What the rest of the firmware relies on: `l` is the list reached from
`timer_list`. -/
structure TimerWorld.Intact (w : TimerWorld) (l : List TimerId) : Prop where
  linked : Linked w.sched.next l
  head : l.head? = some w.sched.timerList
  last : l.getLast? = some .sentinel
  /-- no timer is on the list twice -/
  nodup : l.Nodup
  /-- the active timers are on the list, and apart from the two timers that only
  serve the list itself nothing else is -/
  active : ∀ t, t ≠ .deleted → t ≠ .sentinel → (t ∈ l ↔ (w.agenda t).isSome)
  waketime : ∀ t v, w.agenda t = some v → w.sched.waketime t = v
  /-- neighbours are in the order of the signed comparison of clocks -/
  sorted : l.IsChain fun t u => i32 (w.sched.waketime t - w.sched.waketime u) ≤ 0
  lastInsert : w.sched.lastInsert ∈ l
  /-- the timer that is dispatched next is an earliest one -/
  earliest : ∀ t v, w.agenda t = some v →
    ¬ timerIsBefore v (w.sched.waketime w.sched.timerList)

theorem Listed.sorted {s : Sched} {a : Agenda} {l : List TimerId} (h : Listed s a l) :
    (l ++ [TimerId.sentinel]).IsChain fun t u => i32 (s.waketime t - s.waketime u) ≤ 0 := by
  obtain ⟨base, hwin⟩ := h.window
  refine List.isChain_append.mpr ⟨?_, List.isChain_singleton _, ?_⟩
  · refine h.list.sorted.imp_of_mem_imp fun t u ht hu htu => ?_
    have h1 := hwin t ht
    have h2 := hwin u hu
    rw [h2.not_before_iff h1] at htu
    unfold Within at h1 h2
    unfold i32
    unfold u32 at *
    omega
  · intro t ht u hu
    simp only [List.head?_cons, Option.mem_def, Option.some.injEq] at hu
    subst hu
    have htl := List.mem_of_getLast? ht
    have hlate : ¬ timerIsBefore (s.waketime t) (s.waketime .periodic) := by
      rw [(hwin t htl).not_before_iff (hwin _ h.periodic)]
      have hpair := (sorted_iff_pairwise hwin).mp h.list.sorted
      obtain ⟨pre, rfl⟩ : ∃ pre, l = pre ++ [t] := ⟨_, (List.dropLast_append_getLast? t ht).symm⟩
      have hp := h.periodic
      rw [List.mem_append, List.mem_singleton] at hp
      rcases hp with hp | hp
      · exact (List.pairwise_append.mp hpair).2.2 _ hp t (by simp)
      · rw [hp]
    have := before_opposite hlate
    rw [← h.sentinel] at this
    exact le_of_lt this

theorem Listed.intact {w : TimerWorld} {l : List TimerId} (h : Listed w.sched w.agenda l) :
    w.Intact (l ++ [.sentinel]) where
  linked := h.list.linked
  head := by
    obtain ⟨rest, hl⟩ := h.eq_cons
    rw [hl]; rfl
  last := by simp
  nodup := h.list.nodup
  active := by
    intro t ht hts
    rw [List.mem_append, List.mem_singleton, or_iff_left hts, h.mem t ht]
  waketime := h.waketime
  sorted := h.sorted
  lastInsert := List.mem_append_left _ h.lastInsert.1
  earliest := by
    intro t v hv
    obtain ⟨base, hwin⟩ := h.window
    have htd : t ≠ .deleted := by
      rintro rfl
      rw [h.inactive] at hv
      cases hv
    have ht := (h.mem t htd).mpr (by simp [hv])
    rw [← h.waketime t v hv]
    exact h.list.head_earliest hwin ht

/-- **Timer list integrity.**  After every run of additions, deletions and
dispatches the list reached from `timer_list` is intact; and whatever is done
next returns, unless the firmware refuses a timer that is already late. -/
theorem timerList_intact {ticks : Int} {ops : List TimerOp} {w : TimerWorld}
    (hrun : TimerRun ticks .init ops w) :
    (∃ l, w.Intact l) ∧
      ∀ op, w.allowed op → w.fits ticks op →
        w.tooClose op ∨ ∃ w', Computes (fun fuel => w.next fuel ticks op) w' := by
  obtain ⟨l, h⟩ := hrun.listed
  refine ⟨⟨_, h.intact⟩, fun op hallowed hfits => ?_⟩
  rcases h.step hallowed hfits with ⟨hclose, -⟩ | ⟨w', _, hcomp, -⟩
  · exact .inl hclose
  · exact .inr ⟨w', hcomp⟩

/-- A user timer is added behind the periodic timer, which runs and moves behind
it; then the user timer runs and is rescheduled before the periodic one. -/
theorem timerList_intact_rescheduled :
    ∃ w, TimerRun 100 .init
        [.add 0 50 0, .dispatch 0 ⟨[], 0, .done⟩, .dispatch 50 ⟨[], 80, .reschedule⟩] w ∧
      ∃ l, w.Intact l := by
  have hrun : ∃ w, TimerRun 100 .init
      [.add 0 50 0, .dispatch 0 ⟨[], 0, .done⟩, .dispatch 50 ⟨[], 80, .reschedule⟩] w := by
    refine ⟨_, .cons ⟨rfl, ⟨0, ?_, fun h => by cases h⟩, 3, rfl⟩ <|
      .cons ⟨⟨by decide, by simp⟩, ⟨0, ?_, fun h => by cases h⟩, 3, rfl⟩ <|
      .cons ⟨⟨by decide, by simp⟩, ⟨0, ?_, fun h => by cases h⟩, 3, rfl⟩ .nil⟩
    all_goals
      intro t v hv
      match t with
      | .periodic | .user 0 => cases hv; decide
      | .sentinel | .deleted | .user (n + 1) => cases hv
  obtain ⟨w, hw⟩ := hrun
  exact ⟨w, hw, (timerList_intact hw).1⟩

end FlsunT1.Mcu
