/-
  Chelper/StepperSync.lean --- sharing the move queue of the mcu.

  Source: `steppersync_flush` and what it uses, klipper/klippy/chelper/
  stepcompress.c.  The messages handed to `serialqueue_send_batch` are kept with
  the stepper they came from and with the clocks they had on its queue.  The
  clocks of a message are `uint64_t` fields, so a clock of the stepcompress model
  is read as the `uint64_t` it is stored in.
-/
import FlsunT1.Chelper.StepCompress
import FlsunT1.Library.Ensures
import FlsunT1.Library.Slots

set_option autoImplicit false

namespace FlsunT1.Chelper

open FlsunT1.Library

/-! ## Data -/

/-- `MAX_CLOCK` -/
def maxClock : Int := 0x7fffffffffffffff

/-- The clocks of a message as they are stored. -/
def StepMessage.stored (m : StepMessage) : StepMessage :=
  { m with minClock := u64 m.minClock, reqClock := u64 m.reqClock }

/-- `struct steppersync`, with the arrays as lists. -/
structure StepperSync where
  scList : List StepCompress
  moveClocks : List Int
  deriving DecidableEq, Repr

/-- `steppersync_alloc` -/
def StepperSync.alloc (scList : List StepCompress) (moveNum : Nat) : StepperSync where
  scList := scList
  moveClocks := List.replicate moveNum 0

/-- A message of a batch: the index of its stepper, the message as it was on the
queue of that, and the `min_clock` it is sent with. -/
structure BatchMessage where
  stepper : Nat
  message : StepMessage
  minClock : Int
  deriving DecidableEq, Repr

/-! ## Flushing -/

/-- `heap_replace` -/
def heapReplace (reqClock : Int) (ss : StepperSync) : Except StepFault StepperSync :=
  match MinHeap.siftDown uint64Max reqClock ss.moveClocks.length 0 ss.moveClocks with
  | none => .error .rounds
  | some moveClocks => .ok { ss with moveClocks := moveClocks }

/-- Flush each stepcompress to the specified `move_clock`. -/
def flushEach (moveClock : Int) : List StepCompress → Except StepFault (List StepCompress)
  | [] => .ok []
  | sc :: rest =>
      (stepcompressFlush moveClock sc).bind fun sc =>
        (flushEach moveClock rest).map fun rest => sc :: rest

/-- Find the message with the lowest reqclock, from the stepper `i` on. -/
def findLowest : List StepCompress → Nat → Int → Option (Nat × StepMessage) →
    Option (Nat × StepMessage)
  | [], _, _, qm => qm
  | sc :: rest, i, reqClock, qm =>
      match sc.msgQueue with
      | [] => findLowest rest (i + 1) reqClock qm
      | m :: _ =>
          let m := m.stored
          if m.reqClock < reqClock then findLowest rest (i + 1) m.reqClock (some (i, m))
          else findLowest rest (i + 1) reqClock qm

/-- `list_del`, for the first message of a queue. -/
def StepCompress.delMessage (sc : StepCompress) : StepCompress :=
  { sc with msgQueue := sc.msgQueue.tail }

/-- The loop that orders commands by the reqclock of each pending command; every
round takes a message off its queue. -/
def batchMessages (moveClock : Int) : Nat → StepperSync → List BatchMessage →
    Except StepFault (StepperSync × List BatchMessage)
  | 0, _, _ => .error .rounds
  | rounds + 1, ss, msgs =>
      match findLowest ss.scList 0 maxClock none with
      | none => .ok (ss, msgs)
      | some (i, qm) =>
          if qm.minClock ≠ 0 ∧ qm.reqClock > moveClock then .ok (ss, msgs)
          else
            let nextAvail := MinHeap.read uint64Max ss.moveClocks 0
            let replaced := if qm.minClock ≠ 0 then heapReplace qm.minClock ss else .ok ss
            replaced.bind fun ss =>
              batchMessages moveClock rounds
                { ss with scList := ss.scList.modify i StepCompress.delMessage }
                (msgs ++ [{ stepper := i, message := qm, minClock := nextAvail }])

/-- The number of messages queued. -/
def StepperSync.pending (ss : StepperSync) : Nat := (ss.scList.map (·.msgQueue.length)).sum

/-- `steppersync_flush`: find and transmit any scheduled steps prior to the given
`move_clock`. -/
def steppersyncFlush (moveClock : Int) (ss : StepperSync) :
    Except StepFault (StepperSync × List BatchMessage) :=
  (flushEach moveClock ss.scList).bind fun scList =>
    let ss := { ss with scList := scList }
    batchMessages moveClock (ss.pending + 1) ss []

/-! ## Messages are only appended -/

section Appends

variable {q : List StepMessage} {sc : StepCompress}

/-- The object has the messages `q` and possibly more behind them. -/
def Has (q : List StepMessage) (sc : StepCompress) : Prop := q <+: sc.msgQueue

theorem Has.calcLastStepPrintTime (h : Has q sc) : Has q (calcLastStepPrintTime sc) := by
  unfold Chelper.calcLastStepPrintTime
  split <;> exact h

theorem Has.addMove {firstClock : Int} {move : StepMove} (h : Has q sc) :
    Has q (addMove firstClock move sc) :=
  h.trans (List.prefix_append _ _)

theorem Has.queueFlushLoop {moveClock : Int} : ∀ (rounds : Nat) {sc : StepCompress}, Has q sc →
    Ensures (Has q) (queueFlushLoop moveClock rounds sc) := by
  intro rounds
  induction rounds with
  | zero => intro sc _; exact .error _
  | succ rounds ih =>
    intro sc h
    simp only [Chelper.queueFlushLoop]
    refine .ite (fun _ => ?_) fun _ => .ok h
    cases compressBisectAdd sc with
    | none => exact .error _
    | some move =>
      refine .ite (fun _ => ?_) fun _ => .error _
      exact .ite (fun _ => .ok h.addMove) fun _ => ih h.addMove

theorem Has.queueFlush {moveClock : Int} (h : Has q sc) :
    Ensures (Has q) (queueFlush moveClock sc) :=
  .ite (fun _ => .ok h) fun _ => .map (h.queueFlushLoop _) fun _ h => h.calcLastStepPrintTime

theorem Has.setNextStepDir {sdir : Bool} (h : Has q sc) :
    Ensures (Has q) (setNextStepDir sdir sc) :=
  .ite (fun _ => .ok h) fun _ => .map h.queueFlush fun _ h => h.trans (List.prefix_append _ _)

theorem Has.queuePut {clock : Int} (h : Has q sc) : Ensures (Has q) (queuePut clock sc) :=
  .ite (fun _ => .ok h) fun _ => .error _

theorem Has.queueAppendFar (h : Has q sc) : Ensures (Has q) (queueAppendFar sc) := by
  refine .bind (P := Has q) (queueFlush h) fun sc h => ?_
  exact .ite (fun _ => .ok (calcLastStepPrintTime (addMove h))) fun _ => h.queuePut

theorem Has.queueMakeRoom (h : Has q sc) : Has q (queueMakeRoom sc) := by
  unfold Chelper.queueMakeRoom
  split
  · split <;> exact h
  · exact h

theorem Has.queueAppendExtend (h : Has q sc) : Ensures (Has q) (queueAppendExtend sc) := by
  refine .bind (P := Has q) (.ite (fun _ => h.queueFlush) fun _ => .ok h) fun sc h => ?_
  exact .map h.queueMakeRoom.queuePut fun _ h => h

theorem Has.queueAppend (h : Has q sc) : Ensures (Has q) (queueAppend sc) := by
  refine .bind (P := Has q) h.setNextStepDir fun sc h => ?_
  refine .ite (fun _ => h.queueAppendFar) fun _ => .ite (fun _ => h.queueAppendExtend) fun _ => ?_
  exact .map h.queuePut fun _ h => h

theorem Has.stepcompressFlush {moveClock : Int} (h : Has q sc) :
    Ensures (Has q) (stepcompressFlush moveClock sc) :=
  .bind (P := Has q) (.ite (fun _ => h.queueAppend) fun _ => .ok h) fun _ h => h.queueFlush

theorem Has.stepcompressAppend {sdir : Bool} {stepClock : Int} (h : Has q sc) :
    Ensures (Has q) (stepcompressAppend sdir stepClock sc) := by
  refine .ite (fun _ => .ok h) fun _ => ?_
  exact .map (P := Has q) (.ite (fun _ => h.queueAppend) fun _ => .ok h) fun _ h => h

theorem Has.stepcompressCommit (h : Has q sc) : Ensures (Has q) (stepcompressCommit sc) :=
  .ite (fun _ => h.queueAppend) fun _ => .ok h

theorem Has.stepcompressReset {lastStepClock : Int} (h : Has q sc) :
    Ensures (Has q) (stepcompressReset lastStepClock sc) :=
  .map (P := Has q) h.stepcompressFlush fun _ h => calcLastStepPrintTime h

theorem Has.stepcompressSetLastPosition {clock lastPosition : Int} (h : Has q sc) :
    Ensures (Has q) (stepcompressSetLastPosition clock lastPosition sc) :=
  .map (P := Has q) h.stepcompressFlush fun _ h => h

theorem Has.stepcompressQueueMsg {data : List Int} (h : Has q sc) :
    Ensures (Has q) (stepcompressQueueMsg data sc) :=
  .map (P := Has q) h.stepcompressFlush fun _ h => h.trans (List.prefix_append _ _)

theorem Has.stepcompressSetInvertSdir {invertSdir : Bool} (h : Has q sc) :
    Has q (stepcompressSetInvertSdir invertSdir sc) := by
  unfold Chelper.stepcompressSetInvertSdir
  split <;> exact h

end Appends

/-! ## Runs -/

/-- The calls on one stepcompress object. -/
inductive StepperCall
  | fill (maxError : Int)
  | setInvertSdir (invertSdir : Bool)
  | setTime (filterTicks historyTicks : Int)
  | append (sdir : Bool) (stepClock : Int)
  | commit
  | reset (lastStepClock : Int)
  | setLastPosition (clock lastPosition : Int)
  | queueMsg (data : List Int)
  deriving DecidableEq, Repr

/-- What a call does to the object. -/
def StepperCall.run : StepperCall → StepCompress → Except StepFault StepCompress
  | .fill maxError, sc => .ok { sc with maxError := maxError }
  | .setInvertSdir invertSdir, sc => .ok (stepcompressSetInvertSdir invertSdir sc)
  | .setTime filterTicks historyTicks, sc =>
      .ok { sc with filterTicks := filterTicks, historyTicks := historyTicks }
  | .append sdir stepClock, sc => stepcompressAppend sdir stepClock sc
  | .commit, sc => stepcompressCommit sc
  | .reset lastStepClock, sc => stepcompressReset lastStepClock sc
  | .setLastPosition clock lastPosition, sc => stepcompressSetLastPosition clock lastPosition sc
  | .queueMsg data, sc => stepcompressQueueMsg data sc

theorem Has.run {q : List StepMessage} {sc : StepCompress} (h : Has q sc) (call : StepperCall) :
    Ensures (Has q) (call.run sc) := by
  cases call with
  | fill maxError => exact .ok h
  | setInvertSdir invertSdir => exact .ok h.stepcompressSetInvertSdir
  | setTime filterTicks historyTicks => exact .ok h
  | append sdir stepClock => exact h.stepcompressAppend
  | commit => exact h.stepcompressCommit
  | reset lastStepClock => exact h.stepcompressReset
  | setLastPosition clock lastPosition => exact h.stepcompressSetLastPosition
  | queueMsg data => exact h.stepcompressQueueMsg

/-- The events of a run: a call on the stepper of an index, or a flush of all. -/
inductive SyncOp
  | call (stepper : Nat) (call : StepperCall)
  | flush (moveClock : Int)
  deriving DecidableEq, Repr

/-- A steppersync with all messages it has sent. -/
structure SyncWorld where
  ss : StepperSync
  sent : List BatchMessage
  deriving DecidableEq, Repr

namespace SyncWorld

/-- Any steppers, before the first flush. -/
def init (scList : List StepCompress) (moveNum : Nat) : SyncWorld where
  ss := .alloc scList moveNum
  sent := []

/-- One event. -/
def next (w : SyncWorld) : SyncOp → Except StepFault SyncWorld
  | .call i call =>
      match w.ss.scList[i]? with
      | none => .ok w
      | some sc => (call.run sc).map fun sc =>
          { w with ss := { w.ss with scList := w.ss.scList.set i sc } }
  | .flush moveClock => (steppersyncFlush moveClock w.ss).map fun (ss, msgs) =>
      { ss := ss, sent := w.sent ++ msgs }

/-- The messages of a stepper that are still on its queue. -/
def waiting (w : SyncWorld) (i : Nat) : List StepMessage :=
  (w.ss.scList[i]?.map fun sc => sc.msgQueue.map StepMessage.stored).getD []

/-- The messages of a stepper in the order of the batches, and then of its queue. -/
def stream (w : SyncWorld) (i : Nat) : List StepMessage :=
  (w.sent.filter (·.stepper = i)).map BatchMessage.message ++ w.waiting i

end SyncWorld

/-- Runs of the events. -/
def SyncRun : SyncWorld → List SyncOp → SyncWorld → Prop :=
  Run fun w op w' => w.next op = .ok w'

/-- The messages that use the move queue, from the clock at which they are sent to
the clock at which the slot is free again. -/
def moveUses (sent : List BatchMessage) : List (Use Int) :=
  (sent.filter (·.message.minClock ≠ 0)).map fun b =>
    { start := b.minClock, free := b.message.minClock }

theorem moveUses_snoc (sent : List BatchMessage) (b : BatchMessage) :
    moveUses (sent ++ [b]) = moveUses sent ++
      if b.message.minClock ≠ 0 then [{ start := b.minClock, free := b.message.minClock }]
      else [] := by
  by_cases hmin : b.message.minClock ≠ 0 <;> simp [moveUses, hmin]

/-! ## The move clocks serve the slots -/

/-- The heap holds the free times of the slots that the messages sent have taken. -/
structure Served (n : Nat) (w : SyncWorld) : Prop where
  heap : MinHeap.IsHeap uint64Max w.ss.moveClocks
  slots : ∃ slots, Run Take (List.replicate n 0) (moveUses w.sent) slots ∧
    w.ss.moveClocks.Perm slots

theorem Served.init {scList : List StepCompress} {n : Nat} : Served n (.init scList n) where
  heap := MinHeap.isHeap_replicate (by decide)
  slots := ⟨_, .nil, .refl _⟩

theorem Served.length_eq {n : Nat} {w : SyncWorld} (h : Served n w) :
    w.ss.moveClocks.length = n := by
  obtain ⟨slots, hrun, hperm⟩ := h.slots
  rw [hperm.length_eq, Take.length_eq hrun, List.length_replicate]

theorem stored_minClock (m : StepMessage) :
    0 ≤ m.stored.minClock ∧ m.stored.minClock ≤ uint64Max := by
  simp only [StepMessage.stored, u64, uint64Max]
  omega

/-- A message is sent; when it has a `min_clock` its slot is taken. -/
theorem Served.send {n : Nat} {w : SyncWorld} (hn : 0 < n) (h : Served n w) (i : Nat)
    (m : StepMessage) (scList : List StepCompress) :
    ∃ ss, (if m.stored.minClock ≠ 0 then heapReplace m.stored.minClock w.ss else .ok w.ss) =
        .ok ss ∧ ss.scList = w.ss.scList ∧
      Served n
        { ss := { ss with scList := scList }
          sent := w.sent ++ [{ stepper := i, message := m.stored
                               minClock := MinHeap.read uint64Max w.ss.moveClocks 0 }] } := by
  obtain ⟨slots, hrun, hperm⟩ := h.slots
  have hlen := h.length_eq
  have hne : w.ss.moveClocks ≠ [] := fun hnil => by simp [hnil] at hlen; omega
  by_cases hmin : m.stored.minClock ≠ 0
  · rw [if_pos hmin]
    obtain ⟨moveClocks, slots', hsift, hheap, htake, hperm'⟩ :=
      h.heap.take hne (stored_minClock m).2 hperm
    refine ⟨{ w.ss with moveClocks := moveClocks }, ?_, rfl, hheap, slots', ?_, hperm'⟩
    · rw [heapReplace, hsift]
    · rw [moveUses_snoc, if_pos hmin]
      exact .snoc hrun htake
  · rw [if_neg hmin]
    refine ⟨w.ss, rfl, rfl, h.heap, slots, ?_, hperm⟩
    rw [moveUses_snoc, if_neg hmin, List.append_nil]
    exact hrun

/-! ## The loop over the messages -/

/-- The message found is the first one of its stepper. -/
theorem findLowest_head : ∀ (scList : List StepCompress) (k : Nat) (reqClock : Int)
    (qm : Option (Nat × StepMessage)) (i : Nat) (m : StepMessage),
    findLowest scList k reqClock qm = some (i, m) →
      qm = some (i, m) ∨ ∃ sc first rest, k ≤ i ∧ scList[i - k]? = some sc ∧
        sc.msgQueue = first :: rest ∧ m = first.stored := by
  intro scList
  induction scList with
  | nil => intro k reqClock qm i m h; exact .inl h
  | cons sc scList ih =>
    intro k reqClock qm i m h
    have hrest : ∀ reqClock qm, findLowest scList (k + 1) reqClock qm = some (i, m) →
        qm = some (i, m) ∨ ∃ sc' first rest, k ≤ i ∧ (sc :: scList)[i - k]? = some sc' ∧
          sc'.msgQueue = first :: rest ∧ m = first.stored := by
      intro reqClock qm h
      rcases ih _ _ _ _ _ h with hq | ⟨sc', first, rest, hk, hget, hqueue, hm⟩
      · exact .inl hq
      · refine .inr ⟨sc', first, rest, by omega, ?_, hqueue, hm⟩
        rw [show i - k = i - (k + 1) + 1 by omega, List.getElem?_cons_succ]
        exact hget
    rw [findLowest] at h
    split at h
    · exact hrest _ _ h
    · rename_i first rest hqueue
      simp only at h
      split at h
      · rcases hrest _ _ h with hq | hq
        · rw [Option.some.injEq, Prod.mk.injEq] at hq
          obtain ⟨rfl, rfl⟩ := hq
          exact .inr ⟨sc, first, rest, le_refl _, by simp, hqueue, rfl⟩
        · exact .inr hq
      · exact hrest _ _ h

/-- A message that is taken off its queue is pending no longer. -/
theorem pending_delMessage : ∀ (scList : List StepCompress) (i : Nat) (sc : StepCompress),
    scList[i]? = some sc → sc.msgQueue ≠ [] →
      ((scList.modify i StepCompress.delMessage).map (·.msgQueue.length)).sum + 1 =
        (scList.map (·.msgQueue.length)).sum := by
  intro scList
  induction scList with
  | nil => intro i sc h; simp at h
  | cons sc scList ih =>
    intro i sc' h hne
    cases i with
    | zero =>
      rw [List.getElem?_cons_zero, Option.some.injEq] at h
      subst h
      have hpos := List.length_pos_iff.mpr hne
      simp only [List.modify_zero_cons, List.map_cons, List.sum_cons, StepCompress.delMessage,
        List.length_tail]
      omega
    | succ i =>
      rw [List.getElem?_cons_succ] at h
      have hrest := ih i sc' h hne
      simp only [List.modify_succ_cons, List.map_cons, List.sum_cons]
      omega

theorem stream_send {w : SyncWorld} (moveClocks : List Int) (minClock : Int) {i : Nat}
    {sc : StepCompress} {first : StepMessage} {rest : List StepMessage}
    (hget : w.ss.scList[i]? = some sc) (hqueue : sc.msgQueue = first :: rest) (j : Nat) :
    SyncWorld.stream
      { ss :=
          { scList := w.ss.scList.modify i StepCompress.delMessage, moveClocks := moveClocks }
        sent := w.sent ++ [{ stepper := i, message := first.stored, minClock := minClock }] } j =
      w.stream j := by
  simp only [SyncWorld.stream, SyncWorld.waiting, List.filter_append, List.map_append,
    List.getElem?_modify]
  rw [List.append_assoc]
  congr 1
  by_cases hij : i = j
  · subst hij
    simp [hget, hqueue, StepCompress.delMessage]
  · simp [hij]

/-- The loop ends; every message it sends is served and keeps its place. -/
theorem batchMessages_spec {n : Nat} (moveClock : Int) {sent : List BatchMessage} (hn : 0 < n) :
    ∀ (rounds : Nat) (ss : StepperSync) (msgs : List BatchMessage), ss.pending < rounds →
      Served n { ss := ss, sent := sent ++ msgs } →
      ∃ ss' msgs', batchMessages moveClock rounds ss msgs = .ok (ss', msgs') ∧
        Served n { ss := ss', sent := sent ++ msgs' } ∧
        ∀ i, SyncWorld.stream { ss := ss', sent := sent ++ msgs' } i =
          SyncWorld.stream { ss := ss, sent := sent ++ msgs } i := by
  intro rounds
  induction rounds with
  | zero => intro ss msgs h; omega
  | succ rounds ih =>
    intro ss msgs hpending hserved
    simp only [batchMessages]
    cases hfind : findLowest ss.scList 0 maxClock none with
    | none => exact ⟨ss, msgs, rfl, hserved, fun _ => rfl⟩
    | some found =>
      obtain ⟨i, m⟩ := found
      simp only
      split
      · exact ⟨ss, msgs, rfl, hserved, fun _ => rfl⟩
      · obtain hnone | ⟨sc, first, rest, -, hget, hqueue, rfl⟩ := findLowest_head _ _ _ _ _ _ hfind
        · cases hnone
        rw [Nat.sub_zero] at hget
        obtain ⟨ss1, heq, hsame, hserved1⟩ :=
          hserved.send hn i first (ss.scList.modify i StepCompress.delMessage)
        have hcount := pending_delMessage ss.scList i sc hget (by rw [hqueue]; simp)
        have hstream := stream_send (w := { ss := ss, sent := sent ++ msgs }) ss1.moveClocks
          (MinHeap.read uint64Max ss.moveClocks 0) hget hqueue
        simp only at heq hsame hserved1 hstream
        rw [heq]
        simp only [Except.bind, hsame]
        unfold StepperSync.pending at hpending
        rw [List.append_assoc] at hserved1 hstream
        obtain ⟨ss', msgs', hrun, hserved', hstream'⟩ := ih
          { ss1 with scList := ss.scList.modify i StepCompress.delMessage } _
          (by unfold StepperSync.pending; simp only; omega) hserved1
        exact ⟨ss', msgs', hrun, hserved', fun j => (hstream' j).trans (hstream j)⟩

/-! ## Whole runs -/

/-- Every stepper keeps its messages. -/
def Grows (scList scList' : List StepCompress) : Prop :=
  ∀ (i : Nat) (sc : StepCompress), scList[i]? = some sc →
    ∃ sc', scList'[i]? = some sc' ∧ Has sc.msgQueue sc'

theorem flushEach_grows {moveClock : Int} : ∀ scList : List StepCompress,
    Ensures (Grows scList) (flushEach moveClock scList) := by
  intro scList
  induction scList with
  | nil => exact .ok fun i sc h => by cases h
  | cons sc scList ih =>
    have hfirst : Has sc.msgQueue sc := List.prefix_refl _
    refine .bind (hfirst.stepcompressFlush) fun sc1 h1 => .map ih fun rest hrest => ?_
    intro i sc' hget
    cases i with
    | zero =>
      rw [List.getElem?_cons_zero, Option.some.injEq] at hget
      exact ⟨sc1, rfl, hget ▸ h1⟩
    | succ i =>
      rw [List.getElem?_cons_succ] at hget ⊢
      exact hrest i sc' hget

theorem stream_prefix {w : SyncWorld} (ss : StepperSync) (h : Grows w.ss.scList ss.scList)
    (i : Nat) : w.stream i <+: SyncWorld.stream { w with ss := ss } i := by
  refine (List.prefix_append_right_inj _).mpr ?_
  unfold SyncWorld.waiting
  cases hget : w.ss.scList[i]? with
  | none => exact List.nil_prefix
  | some sc =>
    obtain ⟨sc', hget', hhas⟩ := h i sc hget
    simp only [hget']
    exact List.IsPrefix.map StepMessage.stored hhas

/-- One event keeps the heap serving the slots, and appends to the streams. -/
theorem Served.next {n : Nat} {w : SyncWorld} {op : SyncOp} (hn : 0 < n) (h : Served n w) :
    Ensures (fun w' => Served n w' ∧ ∀ i, w.stream i <+: w'.stream i) (w.next op) := by
  cases op with
  | call i call =>
    simp only [SyncWorld.next]
    cases hget : w.ss.scList[i]? with
    | none => exact .ok ⟨h, fun _ => List.prefix_refl _⟩
    | some sc =>
      have hfirst : Has sc.msgQueue sc := List.prefix_refl _
      refine .map (hfirst.run call) fun sc' hhas => ⟨⟨h.heap, h.slots⟩, stream_prefix _ ?_⟩
      intro j scj hj
      have hi : i < w.ss.scList.length := (List.getElem?_eq_some_iff.mp hget).1
      by_cases hij : i = j
      · subst hij
        rw [hget, Option.some.injEq] at hj
        exact ⟨sc', by simp [hi], hj ▸ hhas⟩
      · exact ⟨scj, by simp only [List.getElem?_set_ne hij, hj], List.prefix_refl _⟩
  | flush moveClock =>
    refine .map (P := fun r => Served n { ss := r.1, sent := w.sent ++ r.2 } ∧
      ∀ i, w.stream i <+: SyncWorld.stream { ss := r.1, sent := w.sent ++ r.2 } i) ?_ fun _ h => h
    refine .bind (flushEach_grows w.ss.scList) fun scList hgrows => ?_
    have hnil : ({ w with ss := { w.ss with scList := scList } } : SyncWorld) =
        { ss := { w.ss with scList := scList }, sent := w.sent ++ [] } := by
      rw [List.append_nil]
    have hserved : Served n { w with ss := { w.ss with scList := scList } } := ⟨h.heap, h.slots⟩
    have hextends := stream_prefix { w.ss with scList := scList } hgrows
    rw [hnil] at hserved hextends
    obtain ⟨ss', msgs', hrun, hserved', hstream⟩ := batchMessages_spec moveClock hn
      ({ w.ss with scList := scList }.pending + 1) _ [] (Nat.lt_succ_self _) hserved
    simp only [hrun]
    exact .ok ⟨hserved', fun i => (hextends i).trans (hstream i ▸ List.prefix_refl _)⟩

theorem steppersyncFlush_returns {n : Nat} {w : SyncWorld} {moveClock : Int}
    {scList : List StepCompress} (hn : 0 < n) (h : Served n w)
    (hflush : flushEach moveClock w.ss.scList = .ok scList) :
    ∃ w', w.next (.flush moveClock) = .ok w' := by
  have hserved : Served n { ss := { w.ss with scList := scList }, sent := w.sent ++ [] } := by
    rw [List.append_nil]
    exact ⟨h.heap, h.slots⟩
  obtain ⟨ss', msgs', hrun, -⟩ := batchMessages_spec moveClock hn
    ({ w.ss with scList := scList }.pending + 1) _ [] (Nat.lt_succ_self _) hserved
  refine ⟨{ ss := ss', sent := w.sent ++ msgs' }, ?_⟩
  simp only [SyncWorld.next, steppersyncFlush, hflush, Except.bind, hrun, Except.map]

theorem SyncRun.served {scList : List StepCompress} {n : Nat} {ops : List SyncOp} {w : SyncWorld}
    (hn : 0 < n) (h : SyncRun (.init scList n) ops w) : Served n w :=
  h.invariant Served.init fun _ _ _ hs hnext => (hs.next hn _ hnext).1

/-- The mcu move queue never overflows.  The heap holds the free times of the slots;
no more messages that use the move queue are in the mcu at any clock than there
are slots; and the messages of a stepper are sent in the order they were queued. -/
theorem moveQueue_never_overflows {scList : List StepCompress} {n : Nat} {ops : List SyncOp}
    {w : SyncWorld} (hn : 0 < n) (hrun : SyncRun (.init scList n) ops w) :
    (MinHeap.IsHeap uint64Max w.ss.moveClocks ∧
      ∃ slots, slots.length = n ∧ Run Take (List.replicate n 0) (moveUses w.sent) slots ∧
        w.ss.moveClocks.Perm slots) ∧
    (∀ t, occupied t (moveUses w.sent) ≤ n) ∧
    (∀ ops' w', SyncRun w ops' w' → ∀ i, w.stream i <+: w'.stream i) := by
  have hserved := hrun.served hn
  obtain ⟨slots, htakes, hperm⟩ := hserved.slots
  have hlen := Take.length_eq htakes
  rw [List.length_replicate] at hlen
  refine ⟨⟨hserved.heap, slots, hlen, htakes, hperm⟩, fun t => ?_, fun ops' w' hrun' => ?_⟩
  · have hle := occupied_le htakes t
    rwa [List.length_replicate] at hle
  · refine (hrun'.invariant (P := fun v => Served n v ∧ ∀ i, w.stream i <+: v.stream i)
      ⟨hserved, fun _ => List.prefix_refl _⟩ ?_).2
    intro v op v' hv hnext
    obtain ⟨hserved', hextends⟩ := hv.1.next hn _ hnext
    exact ⟨hserved', fun i => (hv.2 i).trans (hextends i)⟩

theorem SyncRun.of_any (w : SyncWorld) (ops : List SyncOp) (P : SyncWorld → Bool)
    (h : (ops.foldlM (fun (w : SyncWorld) op => (w.next op).toOption) w).any P = true) :
    ∃ w', SyncRun w ops w' ∧ P w' = true := by
  obtain ⟨w', hrun, hP⟩ := Run.exists_of_any h
  simp only [toOption_eq_some] at hrun
  exact ⟨w', hrun, hP⟩

/-- A run of two steppers on a single slot. -/
theorem moveQueue_never_overflows_shared :
    ∃ w, SyncRun (.init [.alloc 25 240 0, .alloc 25 240 0] 1)
        [.call 0 (.reset 500), .call 1 (.reset 100), .call 0 (.append true 1000),
          .call 1 (.append true 900000100), .call 1 .commit, .call 0 .commit,
          .flush 2000000000] w ∧
      (moveUses w.sent).length = 2 ∧ ∀ t, occupied t (moveUses w.sent) ≤ 1 := by
  obtain ⟨w, hrun, hw⟩ := SyncRun.of_any
    (.init [.alloc 25 240 0, .alloc 25 240 0] 1)
    ([.call 0 (.reset 500), .call 1 (.reset 100), .call 0 (.append true 1000),
      .call 1 (.append true 900000100), .call 1 .commit, .call 0 .commit, .flush 2000000000])
    (fun w => decide ((moveUses w.sent).length = 2)) (by decide +kernel)
  exact ⟨w, hrun, of_decide_eq_true hw, (moveQueue_never_overflows Nat.one_pos hrun).2.1⟩

/-- By the transmit clocks alone, two messages may be on the one slot at the clock
200: the last of them goes out behind a message that is sent at 500 only. -/
theorem moveQueue_transmitClocks :
    ∃ w, SyncRun (.init [.alloc 25 240 0, .alloc 25 240 0] 1)
        [.call 0 (.reset 500), .call 1 (.reset 100), .call 0 (.append true 1000),
          .call 0 (.append true 1700000000), .call 1 (.append true 900000100), .call 1 .commit,
          .call 0 .commit, .flush 2000000000] w ∧
      1 < (moveUses w.sent).countP fun u => decide (u.start ≤ 200 ∧ 200 < u.free) := by
  obtain ⟨w, hrun, hw⟩ := SyncRun.of_any
    (.init [.alloc 25 240 0, .alloc 25 240 0] 1)
    ([.call 0 (.reset 500), .call 1 (.reset 100), .call 0 (.append true 1000),
      .call 0 (.append true 1700000000), .call 1 (.append true 900000100), .call 1 .commit,
      .call 0 .commit, .flush 2000000000])
    (fun w =>
      decide (1 < (moveUses w.sent).countP fun u => decide (u.start ≤ 200 ∧ 200 < u.free)))
    (by decide +kernel)
  exact ⟨w, hrun, of_decide_eq_true hw⟩

end FlsunT1.Chelper
