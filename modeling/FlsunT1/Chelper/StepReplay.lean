/-
  Chelper/StepReplay.lean --- a stepper makes the steps that are replayed.

  The commands of Chelper/StepStream.lean come to the stepper of Mcu/Stepper.lean,
  in the build that steps on both edges, at any time between its steps.
-/
import Mathlib.Data.List.ReduceOption
import FlsunT1.Chelper.StepStream
import FlsunT1.Mcu.StepperPosition

set_option autoImplicit false

namespace FlsunT1.Chelper

open FlsunT1.Library

/-! ## Commands and steps of a stepper -/

/-- The clock of a step and the level of the dir pin. -/
def McuStep.edge (step : McuStep) : Int × Bool := (step.clock, step.dir)

/-- A stepper with the steps it has made. -/
structure StepTrace where
  stepper : Mcu.Stepper
  steps : List (Int × Bool)
  deriving DecidableEq, Repr

/-- A command of the host, or the timer of the stepper; `none` is a shutdown, or a
timer that is not on the timer list. -/
def StepTrace.next (t : StepTrace) : Option StepCommand → Option StepTrace
  | some (.queueStep interval count add) =>
      (Mcu.commandQueueStep .bothEdge interval count add t.stepper).map fun s =>
        { t with stepper := s }
  | some (.setNextStepDir dir) =>
      some { t with stepper := Mcu.commandSetNextStepDir dir.toInt t.stepper }
  | some (.other _) => some t
  | none =>
      if t.stepper.timerPending then
        let (s, res) := Mcu.stepperEvent .bothEdge t.stepper
        some
          { stepper := { s with timerPending := res == .reschedule }
            steps := t.steps ++ [(t.stepper.waketime, t.stepper.dirPin)] }
      else none

/-- A stepper that was configured, at the clock of its `reset_step_clock`. -/
def StepTrace.init (start : Int) : StepTrace where
  stepper :=
    { Mcu.configStepper .bothEdge (-1) 0 with nextStepTime := u32 start, waketime := u32 start }
  steps := []

/-! ## The steps that are due -/

/-- The steps of a move. -/
def moveEdges (add : Int) (dir : Bool) (count : Nat) (wake interval : Int) : List (Int × Bool) :=
  (replayMove add dir count wake interval true).map McuStep.edge

/-- The last clock of some steps. -/
def lastClock (wake : Int) (steps : List (Int × Bool)) : Int :=
  (steps.getLast?.map Prod.fst).getD wake

/-- The steps of the moves that wait. -/
def waitingEdges : Int → Bool → List Mcu.StepperMove → List (Int × Bool)
  | _, _, [] => []
  | wake, dir, m :: mq =>
      let steps := moveEdges m.add (dir != m.mfDir) m.count.toNat wake m.interval
      steps ++ waitingEdges (lastClock wake steps) (dir != m.mfDir) mq

/-- The direction behind some moves. -/
def dirAfter (dir : Bool) (mq : List Mcu.StepperMove) : Bool :=
  mq.foldl (fun dir m => dir != m.mfDir) dir

/-- The steps that a stepper has still to make. -/
def dueEdges (s : Mcu.Stepper) : List (Int × Bool) :=
  if s.count = 0 then []
  else
    let steps := (s.waketime, s.dirPin) ::
      moveEdges s.add s.dirPin (s.count.toNat - 1) s.waketime s.interval
    steps ++ waitingEdges (lastClock s.waketime steps) s.dirPin s.mq

theorem moveEdges_succ (add : Int) (dir : Bool) (n : Nat) (wake interval : Int) :
    moveEdges add dir (n + 1) wake interval =
      (u32 (wake + interval), dir) ::
        moveEdges add dir n (u32 (wake + interval)) (u32 (interval + add)) := by
  cases n <;> rfl

theorem lastClock_append (wake : Int) (steps steps' : List (Int × Bool)) :
    lastClock wake (steps ++ steps') = lastClock (lastClock wake steps) steps' := by
  cases h : steps'.getLast? <;> simp [lastClock, List.getLast?_append, h]

theorem lastClock_cons (wake : Int) (step : Int × Bool) (steps : List (Int × Bool)) :
    lastClock wake (step :: steps) = lastClock step.1 steps :=
  lastClock_append wake [step] steps

theorem lastClock_edges (wake : Int) (steps : List McuStep) :
    lastClock wake (steps.map McuStep.edge) = lastWake wake steps := by
  cases h : steps.getLast? <;> simp [lastClock, lastWake, McuStep.edge, h]

theorem lastClock_dueEdges {s : Mcu.Stepper} (hcount : s.count ≠ 0) (wake : Int) :
    lastClock wake (dueEdges s) = lastClock s.waketime (dueEdges s) := by
  simp only [dueEdges, if_neg hcount, List.cons_append, lastClock_cons]

theorem waitingEdges_snoc (m : Mcu.StepperMove) : ∀ (wake : Int) (dir : Bool)
    (mq : List Mcu.StepperMove), waitingEdges wake dir (mq ++ [m]) =
      waitingEdges wake dir mq ++
        moveEdges m.add (dirAfter dir mq != m.mfDir) m.count.toNat
          (lastClock wake (waitingEdges wake dir mq)) m.interval := by
  intro wake dir mq
  induction mq generalizing wake dir with
  | nil => simp [waitingEdges, dirAfter, lastClock]
  | cons m' mq ih =>
    rw [List.cons_append, waitingEdges, waitingEdges, ih, lastClock_append, List.append_assoc]
    rfl

/-! ## Runs -/

/-- The steps made and the steps due are those replayed. -/
structure Replayed (t : StepTrace) (r : Replay) : Prop where
  steps : r.steps.map McuStep.edge = t.steps ++ dueEdges t.stepper
  wake : r.wake = lastClock t.stepper.waketime (dueEdges t.stepper)
  dir : r.dir = t.stepper.flags.nextDir
  lastDir : t.stepper.flags.lastDir = dirAfter t.stepper.dirPin t.stepper.mq
  single : t.stepper.flags.singleSched = true
  ready : t.stepper.flags.needReset = false
  count : 0 ≤ t.stepper.count ∧ t.stepper.count < 65536
  idle : t.stepper.count = 0 → t.stepper.mq = []
  pending : t.stepper.timerPending = true ↔ t.stepper.count ≠ 0
  moves : ∀ m ∈ t.stepper.mq, 0 < m.count ∧ m.count < 65536

/-- A stepper loads the next move that waits, or becomes idle. -/
theorem Replayed.load {s : Mcu.Stepper} {steps : List (Int × Bool)} {r : Replay}
    (hsteps : r.steps.map McuStep.edge = steps ++ waitingEdges s.waketime s.dirPin s.mq)
    (hwake : r.wake = lastClock s.waketime (waitingEdges s.waketime s.dirPin s.mq))
    (hdir : r.dir = s.flags.nextDir) (hlastDir : s.flags.lastDir = dirAfter s.dirPin s.mq)
    (hsingle : s.flags.singleSched = true) (hready : s.flags.needReset = false)
    (hmoves : ∀ m ∈ s.mq, 0 < m.count ∧ m.count < 65536) :
    Replayed
      { stepper := { (Mcu.stepperLoadNext .bothEdge s).1 with
          timerPending := (Mcu.stepperLoadNext .bothEdge s).2 == .reschedule }
        steps := steps } r := by
  cases hmq : s.mq with
  | nil =>
    simp only [hmq, waitingEdges] at hsteps hwake hlastDir
    simp only [Mcu.stepperLoadNext, hmq]
    exact ⟨hsteps, hwake, hdir, hlastDir, hsingle, hready, by simp, fun _ => rfl, by simp, by simp⟩
  | cons m mq =>
    rw [hmq] at hsteps hwake hlastDir hmoves
    have hm := hmoves m List.mem_cons_self
    obtain ⟨n, hn⟩ : ∃ n : Nat, m.count.toNat = n + 1 := ⟨m.count.toNat - 1, by omega⟩
    rw [Mcu.stepperLoadNext_cons .bothEdge hmq hsingle]
    simp only [waitingEdges, hn, moveEdges_succ, List.cons_append, lastClock_cons] at hsteps hwake
    refine ⟨?_, ?_, hdir, hlastDir, hsingle, hready, ⟨hm.1.le, hm.2⟩, fun h => absurd h hm.1.ne',
      ⟨fun _ => hm.1.ne', fun _ => rfl⟩, fun m' h => hmoves m' (List.mem_cons_of_mem _ h)⟩
    · rw [hsteps, dueEdges, if_neg hm.1.ne']
      simp only [hn, Nat.add_sub_cancel, lastClock_cons, List.cons_append]
    · rw [hwake, dueEdges, if_neg hm.1.ne']
      simp only [hn, Nat.add_sub_cancel, lastClock_cons, List.cons_append]

/-- A step that is made is due no more. -/
theorem Replayed.timer {t t' : StepTrace} {r : Replay} (h : Replayed t r)
    (hnext : t.next none = some t') : Replayed t' r := by
  simp only [StepTrace.next] at hnext
  split at hnext
  case isFalse => cases hnext
  case isTrue hpending =>
    obtain ⟨n, hcount⟩ : ∃ n : Nat, t.stepper.count = n + 1 :=
      ⟨(t.stepper.count - 1).toNat, by have := h.pending.mp hpending; have := h.count; omega⟩
    have hlt := h.count.2
    have hleft : u32 (t.stepper.count - 1) = n := by
      unfold u32
      omega
    rw [← Option.some.inj hnext]
    cases n with
    | zero =>
      -- the last step of a move
      have hevent : Mcu.stepperEvent .bothEdge t.stepper =
          Mcu.stepperLoadNext .bothEdge { t.stepper with stepPin := !t.stepper.stepPin } := by
        simp [Mcu.stepperEvent, Mcu.StepperBuild.haveEdgeOptimization, Mcu.stepperEventEdge, hleft]
      have hdue : dueEdges t.stepper = (t.stepper.waketime, t.stepper.dirPin) ::
          waitingEdges t.stepper.waketime t.stepper.dirPin t.stepper.mq := by
        simp [dueEdges, hcount, moveEdges, replayMove, lastClock]
      rw [hevent]
      refine .load ?_ ?_ h.dir h.lastDir h.single h.ready h.moves
      · rw [h.steps, hdue, List.append_assoc]
        rfl
      · rw [h.wake, hdue, lastClock_cons]
    | succ n =>
      let s : Mcu.Stepper :=
        { t.stepper with
          stepPin := !t.stepper.stepPin
          count := n + 1
          waketime := u32 (t.stepper.waketime + t.stepper.interval)
          interval := u32 (t.stepper.interval + t.stepper.add) }
      have hevent : Mcu.stepperEvent .bothEdge t.stepper = (s, .reschedule) := by
        simp [Mcu.stepperEvent, Mcu.StepperBuild.haveEdgeOptimization, Mcu.stepperEventEdge, hleft,
          s]
        omega
      have hs : s.count ≠ 0 := by
        change (n : Int) + 1 ≠ 0
        omega
      have hdue : dueEdges t.stepper = (t.stepper.waketime, t.stepper.dirPin) :: dueEdges s := by
        simp only [dueEdges, s]
        rw [if_neg (by omega), if_neg (by omega), show t.stepper.count.toNat - 1 = n + 1 by omega,
          show ((n : Int) + 1).toNat - 1 = n by omega, moveEdges_succ]
        simp only [lastClock_cons, List.cons_append]
      rw [hevent]
      refine ⟨?_, ?_, h.dir, h.lastDir, h.single, h.ready, ?_, fun h0 => absurd h0 hs,
        ⟨fun _ => hs, fun _ => rfl⟩, h.moves⟩
      · rw [h.steps, hdue, List.append_assoc]
        rfl
      · rw [h.wake, hdue, lastClock_cons]
        exact lastClock_dueEdges hs _
      · change (0 : Int) ≤ n + 1 ∧ (n : Int) + 1 < 65536
        omega

/-- The steps of a move that is queued are due behind the others. -/
theorem Replayed.queueStep {t t' : StepTrace} {r : Replay} {interval count add : Int}
    (h : Replayed t r) (hnext : t.next (some (.queueStep interval count add)) = some t') :
    Replayed t' (r.next (.queueStep interval count add)) := by
  obtain ⟨s, hs, rfl⟩ := Option.map_eq_some_iff.mp hnext
  unfold Mcu.commandQueueStep at hs
  split at hs
  · cases hs
  rename_i hcount
  have hrange : 0 < u16 count ∧ u16 count < 65536 := by
    unfold u16 at hcount ⊢
    omega
  let m : Mcu.StepperMove :=
    { interval := u32 interval, count := u16 count, add := i16 add
      mfDir := t.stepper.flags.lastDir != t.stepper.flags.nextDir }
  let q := { t.stepper with
    flags := { t.stepper.flags with
      lastDir := if m.mfDir then !t.stepper.flags.lastDir else t.stepper.flags.lastDir }
    mq := t.stepper.mq ++ [m] }
  have hdir : ∀ a b : Bool, (a != (a != b)) = b ∧ (if (a != b) = true then !a else a) = b := by
    decide
  have hturn : (dirAfter t.stepper.dirPin t.stepper.mq != m.mfDir) = r.dir := by
    rw [← h.lastDir, h.dir]
    exact (hdir _ _).1
  have hlastDir : q.flags.lastDir = dirAfter q.dirPin q.mq := by
    rw [show dirAfter q.dirPin q.mq = _ from List.foldl_append]
    exact (hdir _ _).2.trans (h.dir.symm.trans hturn.symm)
  have hmoves : ∀ m' ∈ q.mq, 0 < m'.count ∧ m'.count < 65536 := by
    intro m' hm'
    rcases List.mem_append.mp hm' with hm' | hm'
    · exact h.moves m' hm'
    · rw [List.mem_singleton.mp hm']
      exact hrange
  have hsteps : (r.next (.queueStep interval count add)).steps.map McuStep.edge =
      t.steps ++ (dueEdges t.stepper ++
        moveEdges m.add r.dir m.count.toNat r.wake m.interval) := by
    rw [← List.append_assoc, ← h.steps]
    exact List.map_append
  have hwake : (r.next (.queueStep interval count add)).wake =
      lastClock r.wake (moveEdges m.add r.dir m.count.toNat r.wake m.interval) :=
    (lastClock_edges _ _).symm
  by_cases hbusy : t.stepper.count ≠ 0
  · -- the move waits behind the others
    have hdue : dueEdges q = dueEdges t.stepper ++
        moveEdges m.add r.dir m.count.toNat r.wake m.interval := by
      rw [h.wake, ← hturn]
      simp only [dueEdges, q, if_neg hbusy, waitingEdges_snoc, lastClock_append, List.append_assoc]
    rw [if_pos hbusy] at hs
    obtain rfl : q = s := Option.some.inj hs
    refine ⟨?_, ?_, h.dir, hlastDir, h.single, h.ready, h.count, fun h0 => absurd h0 hbusy,
      h.pending, hmoves⟩
    · rw [hsteps, hdue]
    · rw [hwake, hdue, lastClock_append, h.wake]
  · -- the move is loaded at once
    have hdue : dueEdges t.stepper = [] := if_pos (not_not.mp hbusy)
    have hmq : q.mq = [m] := by simp [q, h.idle (not_not.mp hbusy)]
    have hwaiting : waitingEdges q.waketime q.dirPin q.mq =
        moveEdges m.add r.dir m.count.toNat r.wake m.interval := by
      rw [h.wake, hdue, ← hturn, h.idle (not_not.mp hbusy), hmq]
      simp [q, waitingEdges, dirAfter, lastClock]
    rw [if_neg hbusy, if_neg (by rw [h.ready]; exact Bool.false_ne_true)] at hs
    have hs' : s = { (Mcu.stepperLoadNext .bothEdge q).1 with
        timerPending := (Mcu.stepperLoadNext .bothEdge q).2 == .reschedule } := by
      rw [← Option.some.inj hs]
      have hloaded : (Mcu.stepperLoadNext .bothEdge q).2 = .reschedule := by
        rw [Mcu.stepperLoadNext_cons .bothEdge hmq h.single]
      rw [hloaded]
      rfl
    rw [hs']
    refine .load ?_ ?_ h.dir hlastDir h.single h.ready hmoves
    · rw [hsteps, hdue, hwaiting]
      rfl
    · rw [hwake, hwaiting, h.wake, hdue]
      rfl

/-- Runs of a stepper. -/
def TraceRun (start : Int) : List (Option StepCommand) → StepTrace → Prop :=
  Run (fun t e t' => t.next e = some t') (.init start)

/-- Commands, as the replay takes them. -/
def replayCommands (start : Int) (commands : List StepCommand) : Replay :=
  commands.foldl Replay.next { wake := u32 start, dir := false, steps := [] }

theorem Replayed.of_run {start : Int} {es : List (Option StepCommand)} {t : StepTrace}
    (hrun : TraceRun start es t) :
    Replayed t (replayCommands start es.reduceOption) := by
  induction hrun with
  | nil =>
    refine ⟨rfl, rfl, rfl, rfl, rfl, rfl, ⟨le_rfl, ?_⟩, fun _ => rfl, ⟨?_, absurd rfl⟩, ?_⟩
    · exact show (0 : Int) < 65536 by decide
    · intro hpending
      cases hpending
    · intro m hm
      cases hm
  | @snoc t u es e _ hnext ih =>
    rw [List.reduceOption_append, replayCommands, List.foldl_append]
    match e with
    | none => exact ih.timer hnext
    | some (.queueStep _ _ _) => exact ih.queueStep hnext
    | some (.setNextStepDir dir) =>
      rw [← Option.some.inj hnext]
      exact ⟨ih.steps, ih.wake, by cases dir <;> rfl, ih.lastDir, ih.single, ih.ready, ih.count,
        ih.idle, ih.pending, ih.moves⟩
    | some (.other _) => exact Option.some.inj hnext ▸ ih

theorem Replayed.prefix_and_all {t : StepTrace} {r : Replay} (h : Replayed t r) :
    t.steps <+: r.steps.map McuStep.edge ∧
      (t.stepper.timerPending = false → t.steps = r.steps.map McuStep.edge) := by
  refine ⟨h.steps ▸ List.prefix_append _ _, fun hidle => ?_⟩
  have hcount : t.stepper.count = 0 := by
    by_contra hne
    rw [h.pending.mpr hne] at hidle
    cases hidle
  rw [h.steps, dueEdges, if_pos hcount, List.append_nil]

/-- In every run, whenever the commands come, the steps made are the first of those that are
replayed, with their clocks and directions; an idle stepper has made them all. -/
theorem steps_replayed {start : Int} {es : List (Option StepCommand)} {t : StepTrace}
    (hrun : TraceRun start es t) :
    t.steps <+: (replayCommands start es.reduceOption).steps.map McuStep.edge ∧
      (t.stepper.timerPending = false →
        t.steps = (replayCommands start es.reduceOption).steps.map McuStep.edge) :=
  (Replayed.of_run hrun).prefix_and_all

/-- Two moves, the second queued while the first one runs. -/
theorem steps_replayed_turning :
    ∃ t, TraceRun 1000
        [some (.queueStep 100 2 10), none, some (.setNextStepDir true), some (.queueStep 50 1 0),
          none, none] t ∧
      t.steps = [(1100, false), (1210, false), (1260, true)] := by
  obtain ⟨t, hrun, ht⟩ := Run.exists_of_any (f := StepTrace.next) (s := .init 1000)
    (l := [some (.queueStep 100 2 10), none, some (.setNextStepDir true),
      some (.queueStep 50 1 0), none, none])
    (P := fun t => !t.stepper.timerPending) (by decide +kernel)
  exact ⟨t, hrun, (steps_replayed hrun).2 (by simpa using ht)⟩

/-! ## From the host to the stepper -/

theorem replay_prefix (commands : List StepCommand) (r : Replay) :
    r.steps <+: (commands.foldl Replay.next r).steps := by
  induction commands generalizing r with
  | nil => exact List.prefix_refl _
  | cons command commands ih =>
    refine List.IsPrefix.trans ?_ (ih (r.next command))
    cases command with
    | queueStep => exact List.prefix_append _ _
    | setNextStepDir | other => exact List.prefix_refl _

/-- A stepper that gets the messages of a stepcompress object, or the first of them, makes the
steps that were appended, each in its window and in its direction. -/
theorem steps_requested {sc : StepCompress} {start : Int} {ops : List StepOp} {w : StepWorld}
    {es : List (Option StepCommand)} {t : StepTrace} (hstart : 0 ≤ start)
    (herr : 0 ≤ sc.maxError ∧ sc.maxError < 65536) (hhost : StepRun (.init sc start) ops w)
    (hmcu : TraceRun start es t)
    (hsent : es.reduceOption <+: w.sc.msgQueue.map StepMessage.command) :
    ∃ emitted waiting steps u p, w.requested = emitted ++ waiting ∧
      Faithful sc.maxError start start emitted steps u p ∧
      t.steps <+: steps.map McuStep.edge ∧
      (t.stepper.timerPending = false → es.reduceOption = w.sc.msgQueue.map StepMessage.command →
        t.steps = steps.map McuStep.edge) := by
  obtain ⟨rs, ts, h⟩ := Streaming.of_run hstart herr hhost
  obtain ⟨u, hfaithful⟩ := h.streamed.faithful
  rw [h.maxError] at hfaithful
  obtain ⟨hmade, hall⟩ := (Replayed.of_run hmcu).prefix_and_all
  refine ⟨rs, _, _, u, _, by rw [h.requested, List.append_assoc], hfaithful, ?_, ?_⟩
  · obtain ⟨rest, hrest⟩ := hsent
    refine hmade.trans (List.IsPrefix.map McuStep.edge ?_)
    rw [replay, ← hrest, List.foldl_append]
    exact replay_prefix rest _
  · intro hidle hsame
    rw [hall hidle, hsame]
    rfl

/-- Three steps with a turn; the messages come before the first step and behind it. -/
theorem steps_requested_turning :
    ∃ w t, StepRun (.init (.alloc 25 240 0) 1000)
        [.append true 1500, .append true 1900, .append false 2400, .flush uint64Max] w ∧
      TraceRun 1000 [some (.setNextStepDir true), some (.queueStep 484 2 (-68)), none,
        some (.setNextStepDir false), some (.queueStep 500 1 0), none, none] t ∧
      ∃ emitted steps u p, Faithful 25 1000 1000 emitted steps u p ∧
        t.steps = steps.map McuStep.edge := by
  obtain ⟨w, hhost, hw⟩ := StepRun.of_any (.init (.alloc 25 240 0) 1000)
    [.append true 1500, .append true 1900, .append false 2400, .flush uint64Max]
    (fun w => w.sc.msgQueue.map StepMessage.command = [.setNextStepDir true,
      .queueStep 484 2 (-68), .setNextStepDir false, .queueStep 500 1 0]) (by decide +kernel)
  obtain ⟨t, hmcu, ht⟩ := Run.exists_of_any (f := StepTrace.next) (s := .init 1000)
    (l := [some (.setNextStepDir true), some (.queueStep 484 2 (-68)), none,
      some (.setNextStepDir false), some (.queueStep 500 1 0), none, none])
    (P := fun t => !t.stepper.timerPending) (by decide +kernel)
  have hsame := (of_decide_eq_true hw).symm
  obtain ⟨emitted, -, steps, u, p, -, hfaithful, -, hall⟩ := steps_requested (by decide)
    (by decide) hhost hmcu (hsame ▸ List.prefix_refl _)
  exact ⟨w, t, hhost, hmcu, emitted, steps, u, p, hfaithful, hall (by simpa using ht) hsame⟩

end FlsunT1.Chelper
