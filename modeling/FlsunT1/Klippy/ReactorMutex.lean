/-
  Klippy/ReactorMutex.lean --- the mutex of the reactor's greenlets (klippy/reactor.py).

  A greenlet that finds the mutex locked is queued and pauses.  It can be resumed
  whenever its timer is due, be it by the unlock or by any other code, and looks whether
  the mutex was handed to it.  The calls and the acquisitions are noted beside the mutex.
-/
import FlsunT1.Library.Run

set_option autoImplicit false

namespace FlsunT1.Klippy

open Library

variable {G : Type} [DecidableEq G]

/-! ## The mutex -/

/-- `class ReactorMutex` -/
structure ReactorMutex (G : Type) where
  isLocked : Bool
  nextPending : Bool
  queue : List G

namespace ReactorMutex

/-- `__enter__` up to the first `pause`, and whether there is none. -/
def enter (g : G) (m : ReactorMutex G) : ReactorMutex G × Bool :=
  if ¬m.isLocked then ({ m with isLocked := true }, true)
  else ({ m with queue := m.queue ++ [g] }, false)

/-- `__enter__` behind a `pause`, and whether it returns. -/
def resume (g : G) (m : ReactorMutex G) : ReactorMutex G × Bool :=
  if m.nextPending ∧ m.queue.head? = some g then
    ({ m with nextPending := false, queue := m.queue.tail }, true)
  else (m, false)

/-- `__exit__`, and the greenlet whose timer is set to `NOW`. -/
def exit (m : ReactorMutex G) : ReactorMutex G × Option G :=
  match m.queue with
  | [] => ({ m with isLocked := false }, none)
  | g :: _ => ({ m with nextPending := true }, some g)

end ReactorMutex

/-! ## The greenlets -/

/-- Where a greenlet is. -/
inductive MutexPhase
  | outside
  /-- in a `pause` of `__enter__` -/
  | waiting
  /-- between `__enter__` and `__exit__` -/
  | inside
  deriving DecidableEq

/-- The greenlets around one mutex.  `due` says whose timer is due; `called` and `acquired`
have the calls of `lock` and the returns from it, in their order. -/
structure MutexWorld (G : Type) where
  mutex : ReactorMutex G
  phase : G → MutexPhase
  due : G → Bool
  called : List G
  acquired : List G

inductive MutexEvent (G : Type)
  | lock (g : G)
  | unlock (g : G)
  /-- other code makes the timer of a greenlet due -/
  | poke (g : G)
  /-- the dispatch finds the timer of a greenlet in a `pause` due -/
  | wake (g : G)

namespace MutexWorld

/-- `mutex()`, which nobody has locked. -/
def free : MutexWorld G where
  mutex := ⟨false, false, []⟩
  phase := fun _ => .outside
  due := fun _ => false
  called := []
  acquired := []

/-- `mutex(is_locked=True)`, to be unlocked by `g`. -/
def lockedBy (g : G) : MutexWorld G where
  mutex := ⟨true, false, []⟩
  phase := fun h => if h = g then .inside else .outside
  due := fun _ => false
  called := [g]
  acquired := [g]

/-- What a greenlet can do where it is. -/
def Enabled (w : MutexWorld G) : MutexEvent G → Prop
  | .lock g => w.phase g = .outside
  | .unlock g => w.phase g = .inside
  | .poke _ => True
  | .wake g => w.phase g = .waiting ∧ w.due g = true

instance (w : MutexWorld G) : (e : MutexEvent G) → Decidable (w.Enabled e)
  | .lock _ | .unlock _ => inferInstanceAs (Decidable (_ = _))
  | .poke _ => inferInstanceAs (Decidable True)
  | .wake _ => inferInstanceAs (Decidable (_ ∧ _))

def apply (w : MutexWorld G) : MutexEvent G → MutexWorld G
  | .lock g =>
    let (mutex, returns) := w.mutex.enter g
    { w with
      mutex := mutex
      phase := fun h => if h = g then if returns then .inside else .waiting else w.phase h
      due := fun h => if h = g ∧ ¬returns then false else w.due h
      called := w.called ++ [g]
      acquired := if returns then w.acquired ++ [g] else w.acquired }
  | .unlock g =>
    let (mutex, timer) := w.mutex.exit
    { w with
      mutex := mutex
      phase := fun h => if h = g then .outside else w.phase h
      due := fun h => w.due h || timer == some h }
  | .poke g => { w with due := fun h => w.due h || h == g }
  | .wake g =>
    let (mutex, returns) := w.mutex.resume g
    { w with
      mutex := mutex
      phase := fun h => if h = g then if returns then .inside else .waiting else w.phase h
      due := fun h => if h = g then false else w.due h
      acquired := if returns then w.acquired ++ [g] else w.acquired }

/-- One event. -/
def Step (w : MutexWorld G) (e : MutexEvent G) (w' : MutexWorld G) : Prop :=
  w.Enabled e ∧ w.apply e = w'

/-! ## Who holds the mutex -/

/-- The mutex is free, or it is handed to the first waiter, whose timer is due, or one
greenlet is inside. -/
inductive Hold (w : MutexWorld G) : Prop
  | free (hlocked : w.mutex.isLocked = false) (hpending : w.mutex.nextPending = false)
      (hqueue : w.mutex.queue = []) (hinside : ∀ g, w.phase g ≠ .inside)
  | handed {g : G} {rest : List G} (hlocked : w.mutex.isLocked = true)
      (hpending : w.mutex.nextPending = true) (hqueue : w.mutex.queue = g :: rest)
      (hdue : w.due g = true) (hinside : ∀ h, w.phase h ≠ .inside)
  | held {g : G} (hlocked : w.mutex.isLocked = true) (hpending : w.mutex.nextPending = false)
      (hinside : ∀ h, w.phase h = .inside ↔ h = g)

/-- The invariant of the mutex. -/
structure Ordered (w : MutexWorld G) : Prop where
  hold : w.Hold
  waiting : ∀ g, w.phase g = .waiting ↔ g ∈ w.mutex.queue
  nodup : w.mutex.queue.Nodup
  order : w.called = w.acquired ++ w.mutex.queue

omit [DecidableEq G] in
theorem ordered_free : (free : MutexWorld G).Ordered where
  hold := .free rfl rfl rfl fun _ h => MutexPhase.noConfusion h
  waiting _ := iff_of_false (fun h => MutexPhase.noConfusion h) List.not_mem_nil
  nodup := List.nodup_nil
  order := rfl

theorem ordered_lockedBy (g : G) : (lockedBy g).Ordered where
  hold := by
    refine .held (g := g) rfl rfl fun h => ?_
    unfold lockedBy
    by_cases heq : h = g
    · simp [heq]
    · simp [heq]
  waiting h := by
    refine iff_of_false (fun hw => ?_) List.not_mem_nil
    unfold lockedBy at hw
    simp only at hw
    split at hw
    · cases hw
    · cases hw
  nodup := List.nodup_nil
  order := rfl

variable {w w' : MutexWorld G} {g : G}

/-- `lock` finds the mutex free, or the greenlet becomes the last of the queue. -/
theorem Ordered.lock (h : w.Ordered) (henabled : w.Enabled (.lock g)) :
    (w.apply (.lock g)).Ordered := by
  have hout : w.phase g = .outside := henabled
  have hnot : g ∉ w.mutex.queue := by
    intro hmem
    rw [(h.waiting g).mpr hmem] at hout
    cases hout
  cases hlocked : w.mutex.isLocked with
  | false =>
    have henter : w.mutex.enter g = ({ w.mutex with isLocked := true }, true) := by
      rw [ReactorMutex.enter, hlocked, if_pos Bool.false_ne_true]
    cases h.hold with
    | handed hlocked' => rw [hlocked] at hlocked'; cases hlocked'
    | held hlocked' => rw [hlocked] at hlocked'; cases hlocked'
    | free _ hpending hqueue hinside =>
      unfold apply
      simp only [henter, if_true]
      refine ⟨.held (g := g) rfl hpending fun x => ?_, fun x => ?_, h.nodup, ?_⟩
      · dsimp only
        split
        · rename_i hx
          exact iff_of_true rfl hx
        · rename_i hx
          exact iff_of_false (hinside x) hx
      · dsimp only
        split
        · rename_i hx
          rw [hx]
          exact iff_of_false (fun hw => by cases hw) hnot
        · exact h.waiting x
      · rw [hqueue, List.append_nil, h.order, hqueue, List.append_nil]
  | true =>
    have henter : w.mutex.enter g = ({ w.mutex with queue := w.mutex.queue ++ [g] }, false) := by
      unfold ReactorMutex.enter
      rw [if_neg (not_not.mpr hlocked)]
    unfold apply
    simp only [henter, Bool.false_eq_true, if_false, not_false_eq_true, and_true]
    refine ⟨?_, fun x => ?_, ?_, ?_⟩
    · cases h.hold with
      | free hfree => rw [hlocked] at hfree; cases hfree
      | @handed f rest _ hpending hqueue hdue hinside =>
        have hne : f ≠ g := by
          rintro rfl
          exact hnot (hqueue ▸ List.mem_cons_self)
        refine @Hold.handed _ _ f (rest ++ [g]) hlocked hpending ?_ ?_ fun x => ?_
        · rw [hqueue, List.cons_append]
        · simp only [hne, if_false, hdue]
        · simp only
          split
          · exact fun hw => by cases hw
          · exact hinside x
      | @held f _ hpending hinside =>
        refine .held (g := f) hlocked hpending fun x => ?_
        simp only
        split
        · rename_i hx
          refine iff_of_false (fun hw => by cases hw) fun hxf => ?_
          rw [← hx, (hinside x).mpr hxf] at hout
          cases hout
        · exact hinside x
    · simp only [List.mem_append, List.mem_singleton]
      split
      · rename_i hx
        exact iff_of_true rfl (Or.inr hx)
      · rename_i hx
        rw [or_iff_left hx]
        exact h.waiting x
    · refine List.nodup_append.mpr ⟨h.nodup, List.pairwise_singleton _ g, ?_⟩
      rintro x hx y hy rfl
      exact hnot (List.mem_singleton.mp hy ▸ hx)
    · rw [h.order, List.append_assoc]

/-- `unlock` frees the mutex, or hands it to the first waiter. -/
theorem Ordered.unlock (h : w.Ordered) (henabled : w.Enabled (.unlock g)) :
    (w.apply (.unlock g)).Ordered := by
  have hin : w.phase g = .inside := henabled
  have hheld : w.mutex.isLocked = true ∧ w.mutex.nextPending = false ∧
      ∀ x, w.phase x = .inside → x = g := by
    cases h.hold with
    | free _ _ _ hinside => exact absurd hin (hinside g)
    | handed _ _ _ _ hinside => exact absurd hin (hinside g)
    | @held f hlocked hpending hinside =>
      refine ⟨hlocked, hpending, fun x hx => ?_⟩
      rw [(hinside x).mp hx, (hinside g).mp hin]
  obtain ⟨hlocked, hpending, hinside⟩ := hheld
  have hleft : ∀ x, (if x = g then MutexPhase.outside else w.phase x) ≠ .inside := by
    intro x
    split
    · exact fun hw => by cases hw
    · rename_i hx
      exact fun hw => hx (hinside x hw)
  have hwaiting : ∀ x, (if x = g then MutexPhase.outside else w.phase x) = .waiting ↔
      x ∈ w.mutex.queue := by
    intro x
    split
    · rename_i hx
      refine iff_of_false (fun hw => by cases hw) fun hmem => ?_
      rw [← hx, (h.waiting x).mpr hmem] at hin
      cases hin
    · exact h.waiting x
  cases hqueue : w.mutex.queue with
  | nil =>
    have hexit : w.mutex.exit = ({ w.mutex with isLocked := false }, none) := by
      unfold ReactorMutex.exit
      split
      · rfl
      · rename_i hcons
        rw [hqueue] at hcons
        cases hcons
    unfold apply
    simp only [hexit]
    exact ⟨.free rfl hpending hqueue hleft, hwaiting, h.nodup, h.order⟩
  | cons f rest =>
    have hexit : w.mutex.exit = ({ w.mutex with nextPending := true }, some f) := by
      unfold ReactorMutex.exit
      split
      · rename_i hnil
        rw [hqueue] at hnil
        cases hnil
      · rename_i hcons
        rw [hqueue] at hcons
        cases hcons
        rfl
    unfold apply
    simp only [hexit]
    refine ⟨.handed hlocked rfl hqueue ?_ hleft, hwaiting, h.nodup, h.order⟩
    simp

theorem Ordered.poke (h : w.Ordered) : (w.apply (.poke g)).Ordered := by
  refine ⟨?_, h.waiting, h.nodup, h.order⟩
  cases h.hold with
  | free hlocked hpending hqueue hinside => exact .free hlocked hpending hqueue hinside
  | handed hlocked hpending hqueue hdue hinside =>
    refine .handed hlocked hpending hqueue ?_ hinside
    show (w.due _ || _) = true
    rw [hdue, Bool.true_or]
  | held hlocked hpending hinside => exact .held hlocked hpending hinside

/-- A waiter that is resumed gets the mutex if it was handed to it, and else pauses again. -/
theorem Ordered.wake (h : w.Ordered) (henabled : w.Enabled (.wake g)) :
    (w.apply (.wake g)).Ordered := by
  obtain ⟨hwait, -⟩ := henabled
  by_cases hmine : w.mutex.nextPending = true ∧ w.mutex.queue.head? = some g
  · obtain ⟨hpending, hhead⟩ := hmine
    obtain ⟨rest, hqueue⟩ := List.head?_eq_some_iff.mp hhead
    have hresume : w.mutex.resume g =
        ({ w.mutex with nextPending := false, queue := rest }, true) := by
      rw [ReactorMutex.resume, if_pos ⟨hpending, hhead⟩, hqueue, List.tail_cons]
    have hnodup := h.nodup
    rw [hqueue, List.nodup_cons] at hnodup
    cases h.hold with
    | free _ hpending' => rw [hpending] at hpending'; cases hpending'
    | held _ hpending' => rw [hpending] at hpending'; cases hpending'
    | handed hlocked _ _ _ hinside =>
      unfold apply
      simp only [hresume, if_true]
      refine ⟨.held (g := g) hlocked rfl fun x => ?_, fun x => ?_, hnodup.2, ?_⟩
      · dsimp only
        split
        · rename_i hx
          exact iff_of_true rfl hx
        · rename_i hx
          exact iff_of_false (hinside x) hx
      · dsimp only
        split
        · rename_i hx
          rw [hx]
          exact iff_of_false (fun hw => by cases hw) hnodup.1
        · rename_i hx
          rw [h.waiting x, hqueue, List.mem_cons, or_iff_right hx]
      · rw [h.order, hqueue, List.append_assoc, List.singleton_append]
  · have hresume : w.mutex.resume g = (w.mutex, false) := by
      rw [ReactorMutex.resume, if_neg hmine]
    have hphase : ∀ x, (if x = g then MutexPhase.waiting else w.phase x) = w.phase x := by
      intro x
      split
      · rename_i hx
        rw [hx, hwait]
      · rfl
    unfold apply
    simp only [hresume, Bool.false_eq_true, if_false, hphase]
    refine ⟨?_, h.waiting, h.nodup, h.order⟩
    cases h.hold with
    | free hlocked hpending hqueue hinside => exact .free hlocked hpending hqueue hinside
    | @handed f rest hlocked hpending hqueue hdue hinside =>
      have hne : f ≠ g := by
        rintro rfl
        exact hmine ⟨hpending, by rw [hqueue, List.head?_cons]⟩
      refine .handed hlocked hpending hqueue ?_ hinside
      simp only [hne, if_false, hdue]
    | held hlocked hpending hinside => exact .held hlocked hpending hinside

theorem Ordered.step {e : MutexEvent G} (h : w.Ordered) (hstep : w.Step e w') : w'.Ordered := by
  obtain ⟨henabled, rfl⟩ := hstep
  cases e with
  | lock g => exact h.lock henabled
  | unlock g => exact h.unlock henabled
  | poke g => exact h.poke
  | wake g => exact h.wake henabled

/-! ## What the mutex guarantees -/

/-- At most one greenlet is between `lock` and `unlock`. -/
def Exclusive (w : MutexWorld G) : Prop :=
  ∀ g h, w.phase g = .inside → w.phase h = .inside → g = h

/-- The greenlets that have the mutex or had it are the first that called `lock`, in the order
of their calls, and the others wait in this order. -/
def InCallOrder (w : MutexWorld G) : Prop := w.called = w.acquired ++ w.mutex.queue

/-- A release makes the timer of the first waiter due, and no other. -/
def ReleaseWakesFirst (w w' : MutexWorld G) : Prop :=
  ∀ h, w'.due h = true ↔ w.due h = true ∨ w.mutex.queue.head? = some h

/-- While waiters are queued and nobody is inside, the first of them can run. -/
def FirstCanRun (w : MutexWorld G) : Prop :=
  ∀ g, w.mutex.queue.head? = some g → (∀ h, w.phase h ≠ .inside) → w.due g = true

omit [DecidableEq G] in
theorem Ordered.exclusive (h : w.Ordered) : w.Exclusive := by
  intro x y hx hy
  cases h.hold with
  | free _ _ _ hinside => exact absurd hx (hinside x)
  | handed _ _ _ _ hinside => exact absurd hx (hinside x)
  | held _ _ hinside => rw [(hinside x).mp hx, (hinside y).mp hy]

omit [DecidableEq G] in
theorem Ordered.firstCanRun (h : w.Ordered) : w.FirstCanRun := by
  intro g hhead hnone
  cases h.hold with
  | free _ _ hqueue =>
    rw [hqueue] at hhead
    cases hhead
  | handed _ _ hqueue hdue =>
    rw [hqueue, List.head?_cons, Option.some.injEq] at hhead
    exact hhead ▸ hdue
  | @held f _ _ hinside => exact absurd ((hinside f).mpr rfl) (hnone f)

theorem release_wakes_first (hstep : w.Step (.unlock g) w') : w.ReleaseWakesFirst w' := by
  obtain ⟨-, rfl⟩ := hstep
  intro x
  unfold apply ReactorMutex.exit
  cases hqueue : w.mutex.queue with
  | nil => simp
  | cons f rest => simp

/-- **The mutex excludes and keeps the order.**  In every run of greenlets, however they are
resumed, at most one is inside, they get the mutex in the order of their calls, a release makes
exactly the first waiter runnable, and it stays so until it has the mutex. -/
theorem mutex_ordered {init : MutexWorld G} {es : List (MutexEvent G)}
    (hinit : init = free ∨ ∃ g, init = lockedBy g) (h : Run Step init es w) :
    w.Exclusive ∧ w.InCallOrder ∧ w.FirstCanRun ∧
      ∀ g w', w.Step (.unlock g) w' → w.ReleaseWakesFirst w' := by
  have hstart : init.Ordered := by
    obtain rfl | ⟨g, rfl⟩ := hinit
    · exact ordered_free
    · exact ordered_lockedBy g
  have hordered : w.Ordered := h.invariant hstart fun _ _ _ hs hstep => hs.step hstep
  exact ⟨hordered.exclusive, hordered.order, hordered.firstCanRun,
    fun _ _ hstep => release_wakes_first hstep⟩

/-- Two greenlets wait for a third; the second is resumed too early and pauses again. -/
theorem mutex_ordered_three :
    let events : List (MutexEvent ℕ) :=
      [.lock 0, .lock 1, .lock 2, .poke 2, .wake 2, .unlock 0, .poke 2, .wake 2, .wake 1]
    let w := events.foldl apply free
    (w.Exclusive ∧ w.InCallOrder ∧ w.FirstCanRun ∧
      ∀ g w', w.Step (.unlock g) w' → w.ReleaseWakesFirst w') ∧ w.acquired = [0, 1] := by
  intro events w
  have hrun : Run Step free events w :=
    (Run.of_checks (f := apply) (C := Enabled) (by decide)).mono fun _ _ _ hs => ⟨hs.1, hs.2.symm⟩
  exact ⟨mutex_ordered (Or.inl rfl) hrun, by decide⟩

end MutexWorld

end FlsunT1.Klippy
