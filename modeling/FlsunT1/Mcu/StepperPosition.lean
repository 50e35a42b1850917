/-
  Mcu/StepperPosition.lean --- the position a stepper reports.

  The firmware keeps one register for the position: it holds the position
  negated while the stepper moves backwards, and the steps of a move are added
  to it before they are taken.  Here the register is related to a plan of the
  steps that says nothing about registers: the moves still to be taken, each
  with the direction that was last requested when it was queued, and the steps
  emitted so far.
-/
import Mathlib.Data.List.Count
import Mathlib.Data.List.Infix
import FlsunT1.Library.Run
import FlsunT1.Mcu.Stepper

set_option autoImplicit false

namespace FlsunT1.Mcu

open FlsunT1.Library

/-! ## Events of one stepper -/

/-- What a stepper is told and what happens to it. -/
inductive StepperEvent
  | setNextStepDir (dir : Int)
  | queueStep (interval count add : Int)
  | resetStepClock (waketime : Int)
  /-- the timer of the stepper is due -/
  | stepEvent
  /-- the stop signal of its trsync -/
  | stop
  deriving DecidableEq, Repr

/-- A stepper together with the level of its dir pin at each step it made. -/
structure StepperTrace where
  stepper : Stepper
  edges : List Bool
  deriving DecidableEq, Repr

/-- One event of a stepper; `none` is a shutdown, or a step event while the
timer is not on the timer list. -/
def StepperTrace.next (b : StepperBuild) (t : StepperTrace) : StepperEvent → Option StepperTrace
  | .setNextStepDir dir => some { t with stepper := commandSetNextStepDir dir t.stepper }
  | .queueStep interval count add =>
      (commandQueueStep b interval count add t.stepper).map fun s => { t with stepper := s }
  | .resetStepClock waketime =>
      (commandResetStepClock waketime t.stepper).map fun s => { t with stepper := s }
  | .stepEvent =>
      if t.stepper.timerPending then
        let (s, res) := stepperEvent b t.stepper
        some
          { stepper := { s with timerPending := res == .reschedule }
            edges := t.edges ++ [t.stepper.dirPin] }
      else none
  | .stop => some { t with stepper := stepperStop b t.stepper }

/-- A freshly configured stepper. -/
def StepperTrace.config (b : StepperBuild) (invertStep stepPulseTicks : Int) : StepperTrace where
  stepper := configStepper b invertStep stepPulseTicks
  edges := []

/-! ## The plan of the steps -/

/-- The moves of a stepper as they were asked for: the direction last set, the
moves not yet finished with their directions and remaining steps (the current
one first), whether new moves are refused after a stop, and the directions of
the steps emitted so far. -/
structure StepPlan where
  nextDir : Bool
  moves : List (Bool × Nat)
  needReset : Bool
  emitted : List Bool
  deriving DecidableEq, Repr

/-- The plan before anything was asked for. -/
def StepPlan.init : StepPlan :=
  { nextDir := false, moves := [], needReset := false, emitted := [] }

/-- How an event changes the plan. -/
def StepPlan.next (p : StepPlan) : StepperEvent → StepPlan
  | .setNextStepDir dir => { p with nextDir := dir != 0 }
  | .queueStep _ count _ =>
      if p.moves = [] ∧ p.needReset then p
      else { p with moves := p.moves ++ [(p.nextDir, (u16 count).toNat)] }
  | .resetStepClock _ => { p with needReset := false }
  | .stepEvent =>
      match p.moves with
      | [] => p
      | (d, n) :: rest =>
          { p with
            moves := if n ≤ 1 then rest else (d, n - 1) :: rest
            emitted := p.emitted ++ [d] }
  | .stop => { p with nextDir := false, moves := [], needReset := true }

/-- The plan after the events `es`. -/
def StepPlan.after (es : List StepperEvent) : StepPlan := es.foldl StepPlan.next StepPlan.init

@[simp] theorem StepPlan.after_nil : StepPlan.after [] = StepPlan.init := rfl

@[simp] theorem StepPlan.after_snoc (es : List StepperEvent) (e : StepperEvent) :
    StepPlan.after (es ++ [e]) = (StepPlan.after es).next e := by
  simp [StepPlan.after]

/-- Steps with direction 1 less steps with direction 0. -/
def netSteps (dirs : List Bool) : Int := (dirs.count true : Int) - dirs.count false

@[simp] theorem netSteps_nil : netSteps [] = 0 := rfl

theorem netSteps_snoc (dirs : List Bool) (d : Bool) :
    netSteps (dirs ++ [d]) = netSteps dirs + if d then 1 else -1 := by
  cases d <;> simp [netSteps] <;> omega

/-- The true position, counted from the start, is within `2^30`. -/
def StepPlan.inRange (p : StepPlan) : Prop :=
  -0x40000000 ≤ netSteps p.emitted ∧ netSteps p.emitted ≤ 0x40000000

instance (p : StepPlan) : Decidable p.inRange := inferInstanceAs (Decidable (_ ∧ _))

/-! ## The register -/

/-- What the position register stands for: the biased position, negated while
the direction is 0. -/
def storedPosition (dir : Bool) (net : Int) : Int :=
  if dir then positionBias + net else -(positionBias + net)

/-- A load in the direction the stepper already has, or a turn, keeps what the
register stands for. -/
theorem storedPosition_turn (dir turn : Bool) (net : Int) :
    storedPosition (dir != turn) net =
      if turn then -storedPosition dir net else storedPosition dir net := by
  cases dir <;> cases turn <;> simp [storedPosition]

theorem stepperGetPosition_of_stored {s : Stepper} {net : Int}
    (hsingle : s.flags.singleSched = true)
    (hpos : s.position = u32 (storedPosition s.dirPin net + s.count))
    (h0 : -0x40000000 ≤ net) (h1 : net ≤ 0x40000000) :
    stepperGetPosition s = positionBias + net := by
  unfold stepperGetPosition
  simp only [hsingle, if_true, hpos]
  cases hdir : s.dirPin <;> simp only [storedPosition, positionBias, u32] <;>
    split <;> simp_all <;> omega

/-! ## The moves in the queue -/

/-- The queued moves are the planned ones: each move's direction is that of the
move before it, turned by its own toggle, and the last one leaves `last`. -/
def Queued : Bool → List StepperMove → List (Bool × Nat) → Bool → Prop
  | d, [], [], last => d = last
  | d, m :: ms, (e, n) :: rest, last =>
      e = (d != m.mfDir) ∧ m.count = n ∧ 0 < n ∧ n < 65536 ∧ Queued e ms rest last
  | _, _, _, _ => False

/-- A move pushed on the queue, with its toggle computed from the last queued
direction, is the next planned move. -/
theorem Queued.push {m : StepperMove} {n : Nat} {dir last : Bool} (hm : m.mfDir = (last != dir))
    (hn : m.count = n) (h0 : 0 < n) (h1 : n < 65536) :
    ∀ {d : Bool} {ms : List StepperMove} (rest : List (Bool × Nat)),
      Queued d ms rest last → Queued d (ms ++ [m]) (rest ++ [(dir, n)]) dir := by
  intro d ms
  induction ms generalizing d with
  | nil =>
    intro rest h
    cases rest with
    | nil =>
      have hd : d = last := h
      subst hd
      refine ⟨?_, hn, h0, h1, rfl⟩
      rw [hm]; cases d <;> cases dir <;> rfl
    | cons p rest => exact absurd h (by simp [Queued])
  | cons a ms ih =>
    intro rest h
    cases rest with
    | nil => exact absurd h (by simp [Queued])
    | cons p rest =>
      obtain ⟨he, hc, hp, hlt, htail⟩ := h
      exact ⟨he, hc, hp, hlt, ih _ htail⟩

theorem lastDir_push (last dir : Bool) :
    (if (last != dir) then !last else last) = dir := by
  cases last <;> cases dir <;> rfl

/-! ## The invariant -/

/-- The part of the state that the moves determine. -/
def MovesMatch (s : Stepper) : List (Bool × Nat) → Prop
  | [] => s.count = 0 ∧ s.mq = [] ∧ s.timerPending = false ∧ s.flags.lastDir = s.dirPin
  | (d, n) :: rest =>
      s.count = n ∧ 0 < n ∧ n < 65536 ∧ s.timerPending = true ∧ s.dirPin = d ∧
        Queued d s.mq rest s.flags.lastDir

/-- A stepper follows a plan. -/
structure Follows (t : StepperTrace) (p : StepPlan) : Prop where
  single : t.stepper.flags.singleSched = true
  edges : t.edges = p.emitted
  nextDir : t.stepper.flags.nextDir = p.nextDir
  needReset : t.stepper.flags.needReset = p.needReset
  position : t.stepper.position =
    u32 (storedPosition t.stepper.dirPin (netSteps p.emitted) + t.stepper.count)
  moves : MovesMatch t.stepper p.moves

/-- `stepper_load_next` on a queued move, field by field. -/
theorem stepperLoadNext_cons (b : StepperBuild) {s : Stepper} {m : StepperMove}
    {ms : List StepperMove} (hmq : s.mq = m :: ms) (hsingle : s.flags.singleSched = true) :
    stepperLoadNext b s =
      ({ s with
          mq := ms
          add := m.add
          interval := u32 (m.interval + m.add)
          waketime := u32 (s.waketime + m.interval)
          count := m.count
          flags :=
            if b.haveAvrOptimization then { s.flags with haveAdd := m.add != 0 } else s.flags
          position := u32 ((if m.mfDir then -s.position else s.position) + m.count)
          dirPin := s.dirPin != m.mfDir }, .reschedule) := by
  cases hdir : m.mfDir <;> simp [stepperLoadNext, hmq, hsingle, hdir]

/-- What `stepper_load_next` does once the current move is used up: the next
planned move becomes the current one, or the stepper becomes idle. -/
theorem stepperLoadNext_spec (b : StepperBuild) {s : Stepper} (net : Int)
    (rest : List (Bool × Nat)) (hsingle : s.flags.singleSched = true)
    (hpos : s.position = u32 (storedPosition s.dirPin net))
    (hq : Queued s.dirPin s.mq rest s.flags.lastDir) :
    let r := stepperLoadNext b s
    r.1.flags.singleSched = true ∧ r.1.flags.nextDir = s.flags.nextDir ∧
      r.1.flags.needReset = s.flags.needReset ∧
      r.1.position = u32 (storedPosition r.1.dirPin net + r.1.count) ∧
      MovesMatch { r.1 with timerPending := r.2 == .reschedule } rest := by
  cases hmq : s.mq with
  | nil =>
    cases rest with
    | nil =>
      rw [hmq] at hq
      have hdir : s.dirPin = s.flags.lastDir := hq
      simp [stepperLoadNext, hmq, hsingle, hpos, MovesMatch, hdir]
    | cons p rest => rw [hmq] at hq; exact absurd hq (by simp [Queued])
  | cons m ms =>
    cases rest with
    | nil => rw [hmq] at hq; exact absurd hq (by simp [Queued])
    | cons p rest =>
      rw [hmq] at hq
      obtain ⟨he, hc, h0, h1, htail⟩ := hq
      rw [stepperLoadNext_cons b hmq hsingle]
      have hflags : ∀ f : StepperFlags → Bool,
          (∀ g : StepperFlags, f { g with haveAdd := m.add != 0 } = f g) →
          f (if b.haveAvrOptimization then { s.flags with haveAdd := m.add != 0 }
            else s.flags) = f s.flags := by
        intro f hf
        split
        · exact hf _
        · rfl
      refine ⟨?_, ?_, ?_, ?_, hc, h0, h1, rfl, he.symm, ?_⟩
      · exact (hflags (·.singleSched) fun _ => rfl).trans hsingle
      · exact hflags (·.nextDir) fun _ => rfl
      · exact hflags (·.needReset) fun _ => rfl
      · simp only [storedPosition_turn, hpos]
        cases m.mfDir <;> simp only [u32, if_true, if_false, Bool.false_eq_true] <;> omega
      · rw [hflags (·.lastDir) fun _ => rfl]
        exact htail

theorem MovesMatch.congr {s s' : Stepper} {moves : List (Bool × Nat)} (h : MovesMatch s moves)
    (hcount : s'.count = s.count) (hmq : s'.mq = s.mq)
    (htimer : s'.timerPending = s.timerPending) (hdir : s'.dirPin = s.dirPin)
    (hlast : s'.flags.lastDir = s.flags.lastDir) : MovesMatch s' moves := by
  cases moves with
  | nil => simpa only [MovesMatch, hcount, hmq, htimer, hdir, hlast] using h
  | cons q rest => simpa only [MovesMatch, hcount, hmq, htimer, hdir, hlast] using h

/-! ## Every event keeps the invariant -/

section Steps

variable {b : StepperBuild} {t : StepperTrace} {p : StepPlan}

theorem Follows.config (b : StepperBuild) {invertStep stepPulseTicks : Int}
    (hmode : (configStepper b invertStep stepPulseTicks).flags.singleSched = true) :
    Follows (.config b invertStep stepPulseTicks) .init where
  single := hmode
  edges := rfl
  nextDir := rfl
  needReset := rfl
  position := rfl
  moves := ⟨rfl, rfl, rfl, rfl⟩

theorem Follows.setNextStepDir (h : Follows t p) (dir : Int) :
    Follows { t with stepper := commandSetNextStepDir dir t.stepper }
      (p.next (.setNextStepDir dir)) :=
  ⟨h.single, h.edges, rfl, h.needReset, h.position, h.moves.congr rfl rfl rfl rfl rfl⟩

theorem Follows.resetStepClock (h : Follows t p) {waketime : Int} {s : Stepper}
    (hs : commandResetStepClock waketime t.stepper = some s) :
    Follows { t with stepper := s } (p.next (.resetStepClock waketime)) := by
  unfold commandResetStepClock at hs
  split at hs
  · cases hs
  · cases hs
    exact ⟨h.single, h.edges, h.nextDir, rfl, h.position, h.moves.congr rfl rfl rfl rfl rfl⟩

/-- A stop leaves the register at the negated position, which is how the
direction 0 stores it. -/
theorem Follows.stop (h : Follows t p) (hrange : p.inRange) :
    Follows { t with stepper := stepperStop b t.stepper } (p.next .stop) := by
  have hget := stepperGetPosition_of_stored h.single h.position hrange.1 hrange.2
  refine ⟨h.single, h.edges, rfl, rfl, ?_, rfl, rfl, rfl, rfl⟩
  simp [stepperStop, hget, StepPlan.next, storedPosition]

theorem Follows.queueStep (h : Follows t p) {interval count add : Int} {s : Stepper}
    (hs : commandQueueStep b interval count add t.stepper = some s) :
    Follows { t with stepper := s } (p.next (.queueStep interval count add)) := by
  unfold commandQueueStep at hs
  split at hs
  · cases hs
  rename_i hcount
  have hn0 : 0 < (u16 count).toNat := by unfold u16 at *; omega
  have hn1 : (u16 count).toNat < 65536 := by unfold u16; omega
  have hnc : u16 count = ((u16 count).toNat : Int) := by unfold u16; omega
  have hm := h.moves
  simp only [h.nextDir, lastDir_push] at hs
  cases hp : p.moves with
  | nil =>
    rw [hp] at hm
    obtain ⟨hc0, hmq, htimer, hlast⟩ := hm
    simp only [hc0, ne_eq, not_true, if_false] at hs
    split at hs
    · -- refused after a stop
      rename_i hreset
      cases hs
      have hnext : p.next (.queueStep interval count add) = p := by
        simp [StepPlan.next, hp, ← h.needReset, hreset]
      rw [hnext]
      exact h
    · -- the move is loaded at once
      rename_i hreset
      cases hs
      have hnext : p.next (.queueStep interval count add) =
          { p with moves := [(p.nextDir, (u16 count).toNat)] } := by
        simp [StepPlan.next, hp, ← h.needReset, hreset]
      rw [hnext]
      obtain ⟨h1, h2, h3, h4, h5⟩ := stepperLoadNext_spec b (s := { t.stepper with
          mq := t.stepper.mq ++ [{
            interval := u32 interval
            add := i16 add
            count := u16 count
            mfDir := t.stepper.flags.lastDir != p.nextDir }]
          flags := { t.stepper.flags with lastDir := p.nextDir, nextDir := p.nextDir } })
        (netSteps p.emitted) [(p.nextDir, (u16 count).toNat)] h.single
        (by simpa [hc0] using h.position)
        (by
          rw [hmq]
          exact Queued.push (by simp) hnc hn0 hn1 [] hlast.symm)
      refine ⟨h1, h.edges, h2, h3.trans h.needReset, h4, ?_⟩
      obtain ⟨g1, g2, g3, -, g5, g6⟩ := h5
      exact ⟨g1, g2, g3, rfl, g5, g6⟩
  | cons q rest =>
    -- a move is being executed
    rw [hp] at hm
    obtain ⟨hc, h0, h1, htimer, hdir, hq⟩ := hm
    have hne : t.stepper.count ≠ 0 := by omega
    simp only [ne_eq, hne, not_false_eq_true, if_true] at hs
    cases hs
    have hnext : p.next (.queueStep interval count add) =
        { p with moves := q :: (rest ++ [(p.nextDir, (u16 count).toNat)]) } := by
      simp [StepPlan.next, hp]
    rw [hnext]
    exact ⟨h.single, h.edges, rfl, h.needReset, h.position, hc, h0, h1, htimer, hdir,
      Queued.push rfl hnc hn0 hn1 _ hq⟩

theorem storedPosition_step (d : Bool) (net count : Int) :
    storedPosition d (net + if d then 1 else -1) + (count - 1) = storedPosition d net + count := by
  cases d <;> simp [storedPosition] <;> omega

/-- The part of a step event the two builds share: what is left of the stepper
after the step pin moved, and what `stepper_load_next` made of it. -/
theorem Follows.stepOf (h : Follows t p) {d : Bool} {n : Nat} {rest : List (Bool × Nat)}
    (hp : p.moves = (d, n) :: rest) {s : Stepper} {res : TimerResult}
    (hgo : 1 < n → res = .reschedule ∧ s.count = t.stepper.count - 1 ∧ s.mq = t.stepper.mq ∧
      s.dirPin = t.stepper.dirPin ∧ s.flags = t.stepper.flags ∧ s.position = t.stepper.position)
    (hload : n = 1 → ∃ stepPin : Bool, ∃ s₀ : Stepper,
      stepperLoadNext b { t.stepper with stepPin := stepPin } = (s₀, res) ∧
        s.count = s₀.count ∧ s.mq = s₀.mq ∧ s.dirPin = s₀.dirPin ∧ s.flags = s₀.flags ∧
        s.position = s₀.position) :
    Follows
      { stepper := { s with timerPending := res == .reschedule }
        edges := t.edges ++ [t.stepper.dirPin] } (p.next .stepEvent) := by
  have hm := h.moves
  rw [hp] at hm
  obtain ⟨hc, h0, h1, htimer, hdir, hq⟩ := hm
  have hedges : t.edges ++ [t.stepper.dirPin] = p.emitted ++ [d] := by rw [h.edges, hdir]
  by_cases hlast : n = 1
  · -- the last step of the move
    obtain ⟨stepPin, s₀, hs₀, e1, e2, e3, e4, e5⟩ := hload hlast
    have hnext : p.next .stepEvent =
        { p with moves := rest, emitted := p.emitted ++ [d] } := by
      simp [StepPlan.next, hp, hlast]
    rw [hnext]
    have hpos : t.stepper.position =
        u32 (storedPosition t.stepper.dirPin (netSteps (p.emitted ++ [d]))) := by
      have hstep := storedPosition_step d (netSteps p.emitted) t.stepper.count
      have hzero : t.stepper.count - 1 = 0 := by omega
      rw [netSteps_snoc, hdir, h.position, hdir, ← hstep, hzero, Int.add_zero]
    have hspec := stepperLoadNext_spec b (s := { t.stepper with stepPin := stepPin })
      (netSteps (p.emitted ++ [d])) rest h.single hpos (by rw [← hdir] at hq; exact hq)
    rw [hs₀] at hspec
    obtain ⟨g1, g2, g3, g4, g5⟩ := hspec
    refine ⟨?_, hedges, ?_, ?_, ?_, ?_⟩
    · simpa only [e4] using g1
    · simpa only [e4] using g2.trans h.nextDir
    · simpa only [e4] using g3.trans h.needReset
    · simpa only [e5, e3, e1] using g4
    · exact g5.congr e1 e2 rfl e3 (by simp only [e4])
  · -- the move goes on
    obtain ⟨hres, e1, e2, e3, e4, e5⟩ := hgo (by omega)
    have hn : ¬ n ≤ 1 := by omega
    have hnext : p.next .stepEvent =
        { p with moves := (d, n - 1) :: rest, emitted := p.emitted ++ [d] } := by
      simp [StepPlan.next, hp, hn]
    rw [hnext]
    refine ⟨?_, hedges, ?_, ?_, ?_, ?_, by omega, by omega, ?_, ?_, ?_⟩
    · simpa only [e4] using h.single
    · simpa only [e4] using h.nextDir
    · simpa only [e4] using h.needReset
    · simp only [e5, e3, e1, h.position, hdir, netSteps_snoc, storedPosition_step]
    · show s.count = ((n - 1 : Nat) : Int)
      omega
    · simp [hres]
    · simpa only [e3] using hdir
    · simpa only [e2, e4] using hq

theorem Follows.stepEvent (h : Follows t p) {t' : StepperTrace}
    (ht : t.next b .stepEvent = some t') : Follows t' (p.next .stepEvent) := by
  have hm := h.moves
  cases hp : p.moves with
  | nil =>
    -- no timer is pending, so there is no such event
    rw [hp] at hm
    simp [StepperTrace.next, hm.2.2.1] at ht
  | cons q rest =>
    obtain ⟨d, n⟩ := q
    rw [hp] at hm
    obtain ⟨hc, h0, h1, htimer, -, -⟩ := hm
    simp only [StepperTrace.next, htimer, if_true] at ht
    cases ht
    have hu32 : u32 (t.stepper.count - 1) = (n : Int) - 1 := by unfold u32; omega
    have hu16 : u16 (t.stepper.count - 1) = (n : Int) - 1 := by unfold u16; omega
    have hlow : t.stepper.count - u16 t.stepper.count = 0 := by unfold u16; omega
    cases b with
    | bothEdge =>
      refine h.stepOf (b := .bothEdge) hp ?_ ?_
      · intro hn
        have hne : (n : Int) - 1 ≠ 0 := by omega
        simp [stepperEvent, StepperBuild.haveEdgeOptimization, stepperEventEdge, hu32, hne]
        omega
      · intro hn
        have heq : (n : Int) - 1 = 0 := by omega
        refine ⟨!t.stepper.stepPin, (stepperEvent .bothEdge t.stepper).1, ?_, rfl, rfl, rfl, rfl, rfl⟩
        simp [stepperEvent, StepperBuild.haveEdgeOptimization, stepperEventEdge, hu32, heq]
    | avr =>
      refine h.stepOf (b := .avr) hp ?_ ?_
      · intro hn
        have hne : (n : Int) - 1 ≠ 0 := by omega
        simp [stepperEvent, StepperBuild.haveEdgeOptimization, stepperEventAvr, hu16, hne, hlow]
        omega
      · intro hn
        have heq : (n : Int) - 1 = 0 := by omega
        refine ⟨!t.stepper.stepPin,
          (stepperLoadNext .avr { t.stepper with stepPin := !t.stepper.stepPin }).1, ?_, ?_⟩
        · simp [stepperEvent, StepperBuild.haveEdgeOptimization, stepperEventAvr, hu16, heq]
        · simp [stepperEvent, StepperBuild.haveEdgeOptimization, stepperEventAvr, hu16, heq]

theorem Follows.next (h : Follows t p) (hrange : p.inRange) {e : StepperEvent}
    {t' : StepperTrace} (ht : t.next b e = some t') : Follows t' (p.next e) := by
  cases e with
  | setNextStepDir dir => cases ht; exact h.setNextStepDir dir
  | queueStep interval count add =>
    obtain ⟨s, hs, rfl⟩ := Option.map_eq_some_iff.mp ht
    exact h.queueStep hs
  | resetStepClock waketime =>
    obtain ⟨s, hs, rfl⟩ := Option.map_eq_some_iff.mp ht
    exact h.resetStepClock hs
  | stepEvent => exact h.stepEvent ht
  | stop => cases ht; exact h.stop hrange

end Steps

/-! ## Whole runs -/

/-- Runs of a stepper of the build `b`. -/
def StepperRun (b : StepperBuild) : StepperTrace → List StepperEvent → StepperTrace → Prop :=
  Run fun t e t' => t.next b e = some t'

theorem follows_of_run {b : StepperBuild} {t t' : StepperTrace} {es : List StepperEvent}
    (hrun : StepperRun b t es t') (hinit : Follows t .init)
    (hrange : ∀ es', es' <+: es → (StepPlan.after es').inRange) :
    Follows t' (StepPlan.after es) := by
  induction hrun with
  | nil => exact hinit
  | @snoc u v es e hr hstep ih =>
    rw [StepPlan.after_snoc]
    refine (ih fun es' hpre => ?_).next ?_ hstep
    · exact hrange es' (hpre.trans (List.prefix_append _ _))
    · exact hrange es (List.prefix_append _ _)

/-- **Stepper position.**  In every run from configuration, whatever is queued,
stepped and stopped, the position the stepper reports is the number of steps
emitted with direction 1 less the number emitted with direction 0, and the dir
pin had, at each step, the direction last set when the move of that step was
queued.  The run may end anywhere, so this holds in the middle of a move. -/
theorem reportedPosition_eq_netSteps (b : StepperBuild) {invertStep stepPulseTicks : Int}
    (hmode : (configStepper b invertStep stepPulseTicks).flags.singleSched = true)
    {es : List StepperEvent} {t : StepperTrace}
    (hrun : StepperRun b (.config b invertStep stepPulseTicks) es t)
    (hrange : ∀ es', es' <+: es → (StepPlan.after es').inRange) :
    reportedPosition t.stepper = netSteps (StepPlan.after es).emitted ∧
      t.edges = (StepPlan.after es).emitted := by
  have h := follows_of_run hrun (.config b hmode) hrange
  have hnow := hrange es (List.prefix_rfl)
  refine ⟨?_, h.edges⟩
  rw [reportedPosition, stepperGetPosition_of_stored h.single h.position hnow.1 hnow.2]
  have hbias : positionBias + netSteps (StepPlan.after es).emitted - positionBias =
      netSteps (StepPlan.after es).emitted := by omega
  obtain ⟨h0, h1⟩ := hnow
  rw [hbias]
  exact i32_of_range (by omega) (by omega)

/-- Two steps forward, a turn in the middle of the move, and a stop before the
second backward step: one step forward is what remains. -/
theorem reportedPosition_turn_and_stop :
    ∃ t, StepperRun .bothEdge (.config .bothEdge (-1) 0)
        [.setNextStepDir 1, .queueStep 100 2 0, .stepEvent, .setNextStepDir 0, .queueStep 50 2 0,
          .stepEvent, .stepEvent, .stop] t ∧
      reportedPosition t.stepper = 1 ∧ t.edges = [true, true, false] := by
  have hrun : ∃ t, StepperRun .bothEdge (.config .bothEdge (-1) 0)
      [.setNextStepDir 1, .queueStep 100 2 0, .stepEvent, .setNextStepDir 0, .queueStep 50 2 0,
        .stepEvent, .stepEvent, .stop] t := ⟨_, Run.iff_foldlM.mpr rfl⟩
  obtain ⟨t, ht⟩ := hrun
  have hrange : ∀ es' ∈ List.inits [.setNextStepDir 1, .queueStep 100 2 0, .stepEvent,
      .setNextStepDir 0, .queueStep 50 2 0, .stepEvent, .stepEvent, .stop],
      (StepPlan.after es').inRange := by decide
  exact ⟨t, ht, reportedPosition_eq_netSteps .bothEdge rfl ht
    fun es' hpre => hrange es' ((List.mem_inits _ _).mpr hpre)⟩

end FlsunT1.Mcu
