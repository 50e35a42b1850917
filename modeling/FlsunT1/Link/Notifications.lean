/-
  Link/Notifications.lean --- notifications come after what the mcu sent before them.

  `handle_message` gives notice of a block when an ack has a higher number, and one
  block later when a response has: the mcu may send more responses with the same
  number before its ack.  Over links that keep their order nothing that the mcu sent
  while it dispatched a block comes after the notice of that block.
-/
import FlsunT1.Link.QueueDelivery
import Mathlib.Data.List.TakeWhile

set_option autoImplicit false

namespace FlsunT1.Link

open FlsunT1.Library FlsunT1.Chelper FlsunT1.Mcu

/-! ## What is received -/

/-- The message of a notification, its `req_clock` the number of its block. -/
def noticeOf : Received → Option QueueMessage
  | .notify qm => some qm
  | .data _ => none

/-- The block that the mcu dispatched when it sent a response. -/
def originOf : Received → Option Int
  | .data m => m.origin
  | .notify _ => none

/-- The notifications due for the blocks built, with their numbers. -/
def noticesFrom : Int → List Built → List QueueMessage
  | _, [] => []
  | n, b :: built => notices n b.copied ++ noticesFrom (n + 1) built

theorem noticesFrom_snoc (b : Built) : ∀ (built : List Built) (n : Int),
    noticesFrom n (built ++ [b]) = noticesFrom n built ++ notices (n + built.length) b.copied := by
  intro built
  induction built with
  | nil =>
    intro n
    simp only [List.nil_append, noticesFrom, List.append_nil, List.length_nil, Nat.cast_zero,
      add_zero]
  | cons b' built ih =>
    intro n
    simp only [List.cons_append, noticesFrom, ih, List.append_assoc, List.length_cons,
      Nat.cast_add, Nat.cast_one]
    congr 3
    omega

/-- `wake_seq`: the last block that a message gives notice of. -/
def wakeSeq (m : Numbered Response) : Int :=
  m.number - 1 - if m.message.payload = [] then 0 else 1

/-- A response comes after the notices that stand before it. -/
def Later (a b : Received) : Prop :=
  ∀ qm n, noticeOf a = some qm → originOf b = some n → qm.reqClock < n

theorem later_notify (a : Received) (qm : QueueMessage) : Later a (.notify qm) := by
  intro _ _ _ hn
  cases hn

namespace World

/-- All that was put on the receive queue, in its order. -/
def received (w : World) : List Received := w.pulled ++ w.host.receiveQueue

/-- The notices given. -/
def noticed (w : World) : List QueueMessage := w.received.filterMap noticeOf

end World

/-- Synchronised, with no notification due. -/
structure Quiet (w : World) : Prop extends Synchronised w where
  notifyQueue : w.host.notifyQueue = []
  receiveQueue : w.host.receiveQueue = []
  pulled : w.pulled = []

/-- The invariant of notifications. -/
structure Noticed (start : Int) (w : World) : Prop where
  all : w.noticed ++ w.host.notifyQueue = noticesFrom start w.built
  given : ∀ qm ∈ w.noticed, qm.reqClock < w.host.receiveSeq
  order : w.received.Pairwise Later
  inFlight : ∀ m ∈ w.toHost, ∀ n, m.message.origin = some n → ∀ qm ∈ w.noticed, qm.reqClock < n
  wakes : w.toHost.Pairwise fun m m' => ∀ n, m'.message.origin = some n → wakeSeq m < n
  origin : ∀ m ∈ w.toHost, ∀ n, m.message.origin = some n →
    n = m.number - 1 ∧ m.message.payload ≠ []
  dispatching : w.mcu.phase = .dispatching →
    (∀ m ∈ w.toHost, wakeSeq m < w.next start - 1) ∧
      ∀ qm ∈ w.noticed, qm.reqClock < w.next start - 1

theorem Noticed.init {w : World} (h : Quiet w) : Noticed w.host.receiveSeq w := by
  have hnil : w.received = [] := by rw [World.received, h.pulled, h.receiveQueue, List.append_nil]
  have hnone : w.noticed = [] := by rw [World.noticed, hnil, List.filterMap_nil]
  refine ⟨?_, ?_, ?_, ?_, ?_, ?_, ?_⟩
  · rw [hnone, h.notifyQueue, h.built]
    rfl
  · rw [hnone]
    intro qm hqm
    cases hqm
  · rw [hnil]
    exact List.Pairwise.nil
  · rw [h.toHost]
    intro m hm
    cases hm
  · rw [h.toHost]
    exact List.Pairwise.nil
  · rw [h.toHost]
    intro m hm
    cases hm
  · rw [h.phase]
    intro hb
    cases hb

/-! ## Steps -/

theorem sendBatch_notices (q : Nat) (msgs : List QueueMessage) (sq : SerialQueue) :
    (serialqueueSendBatch q msgs sq).notifyQueue = sq.notifyQueue ∧
      (serialqueueSendBatch q msgs sq).receiveQueue = sq.receiveQueue := by
  unfold serialqueueSendBatch
  simp only
  split
  · exact ⟨rfl, rfl⟩
  · split
    · exact ⟨rfl, rfl⟩
    · exact ⟨rfl, rfl⟩

namespace Noticed

variable {start : Int} {w w' : World}

theorem lose (h : Noticed start w) (hreceived : w'.received = w.received)
    (hnotify : w'.host.notifyQueue = w.host.notifyQueue)
    (hseq : w'.host.receiveSeq = w.host.receiveSeq) (hbuilt : w'.built = w.built)
    (hdispatched : w'.dispatched = w.dispatched) (htoHost : w'.toHost.Sublist w.toHost)
    (hphase : w'.mcu.phase = .dispatching → w.mcu.phase = .dispatching) : Noticed start w' := by
  have hnoticed : w'.noticed = w.noticed := by rw [World.noticed, hreceived, World.noticed]
  refine ⟨?_, ?_, ?_, ?_, h.wakes.sublist htoHost, ?_, ?_⟩
  · rw [hnoticed, hnotify, hbuilt]
    exact h.all
  · rw [hnoticed, hseq]
    exact h.given
  · rw [hreceived]
    exact h.order
  · rw [hnoticed]
    exact fun m hm => h.inFlight m (htoHost.subset hm)
  · exact fun m hm => h.origin m (htoHost.subset hm)
  · intro hb
    obtain ⟨hwakes, hgiven⟩ := h.dispatching (hphase hb)
    simp only [World.next, hdispatched, hnoticed]
    exact ⟨fun m hm => hwakes m (htoHost.subset hm), hgiven⟩

/-- The mcu sends a message, no ack while it dispatches. -/
theorem emit (h : Noticed start w) {payload : List Nat}
    (hpayload : w.mcu.phase = .dispatching → payload ≠ []) :
    Noticed start (w.emit start payload) := by
  have horigin : ∀ n, (if w.mcu.phase = .dispatching ∧ payload ≠ [] then
      some (w.next start - 1) else none) = some n →
      w.mcu.phase = .dispatching ∧ payload ≠ [] ∧ w.next start - 1 = n := by
    intro n hn
    split at hn
    · rename_i hboth
      exact ⟨hboth.1, hboth.2, Option.some.inj hn⟩
    · cases hn
  refine ⟨h.all, h.given, h.order, ?_, ?_, ?_, ?_⟩
  · intro m hm n hn
    rcases List.mem_append.mp hm with hm | hm
    · exact h.inFlight m hm n hn
    · rw [List.mem_singleton] at hm
      subst hm
      obtain ⟨hb, -, rfl⟩ := horigin n hn
      exact (h.dispatching hb).2
  · refine List.pairwise_append.mpr ⟨h.wakes, List.pairwise_singleton _ _, ?_⟩
    intro m hm m' hm' n hn
    rw [List.mem_singleton] at hm'
    subst hm'
    obtain ⟨hb, -, rfl⟩ := horigin n hn
    exact (h.dispatching hb).1 m hm
  · intro m hm n hn
    rcases List.mem_append.mp hm with hm | hm
    · exact h.origin m hm n hn
    · rw [List.mem_singleton] at hm
      subst hm
      obtain ⟨-, hne, rfl⟩ := horigin n hn
      exact ⟨rfl, hne⟩
  · intro hb
    obtain ⟨hwakes, hgiven⟩ := h.dispatching hb
    refine ⟨fun m hm => ?_, hgiven⟩
    rcases List.mem_append.mp hm with hm | hm
    · exact hwakes m hm
    · rw [List.mem_singleton] at hm
      subst hm
      simp only [wakeSeq, hpayload hb, if_false]
      show w.next start - 1 - 1 < w.next start - 1
      omega

theorem ack (h : Noticed start w) {phase : ConsolePhase} (hphase : phase ≠ .dispatching) :
    Noticed start { w.emit start [] with mcu := { w.mcu with phase := phase } } := by
  have hidle : Noticed start { w with mcu := { w.mcu with phase := phase } } :=
    h.lose rfl rfl rfl rfl rfl (.refl _) fun hb => absurd hb hphase
  have hemit : Noticed start
      (World.emit start [] { w with mcu := { w.mcu with phase := phase } }) :=
    hidle.emit fun hb => absurd hb hphase
  have heq : World.emit start [] { w with mcu := { w.mcu with phase := phase } } =
      { w.emit start [] with mcu := { w.mcu with phase := phase } } := by
    simp only [World.emit, World.next, ne_eq, not_true_eq_false, and_false, if_false]
  rw [heq] at hemit
  exact hemit

/-- A block is built, and the notifications of its messages become due. -/
theorem send (h : Noticed start w) (hdelivering : Delivering start w) {host : SerialQueue}
    {built : Built} (hsent : Sent w.host host built) :
    Noticed start
      { w with
        host := host
        toMcu := w.toMcu ++ [{ number := w.host.sendSeq, message := some built.block }]
        built := w.built ++ [built] } := by
  have hnoticed : World.noticed
      { w with
        host := host
        toMcu := w.toMcu ++ [{ number := w.host.sendSeq, message := some built.block }]
        built := w.built ++ [built] } = w.noticed := by
    simp only [World.noticed, World.received, hsent.receiveQueue]
  refine ⟨?_, ?_, ?_, ?_, h.wakes, h.origin, fun hb => ?_⟩
  · rw [hnoticed]
    simp only [hsent.notifyQueue]
    rw [← List.append_assoc, h.all, noticesFrom_snoc, hdelivering.sendSeq]
  · rw [hnoticed]
    simp only [hsent.receiveSeq]
    exact h.given
  · simp only [World.received, hsent.receiveQueue]
    exact h.order
  · rw [hnoticed]
    exact h.inFlight
  · rw [hnoticed]
    exact h.dispatching hb

/-- The mcu takes a block; no notice of it was given, and none is on the way. -/
theorem accept (h : Noticed start w) (hdelivering : Delivering start w) (block : Block)
    (command : CommandState) :
    Noticed start
      { w with
        mcu := { command := command, phase := .dispatching }
        dispatched := w.dispatched ++ [block] } := by
  have hrange := hdelivering.window_range
  have hnext : World.next start
      { w with
        mcu := { command := command, phase := .dispatching }
        dispatched := w.dispatched ++ [block] } = w.next start + 1 := by
    simp only [World.next, List.length_append, List.length_singleton, Nat.cast_add, Nat.cast_one,
      add_assoc]
  refine ⟨h.all, h.given, h.order, h.inFlight, h.wakes, h.origin, fun _ => ?_⟩
  rw [hnext]
  refine ⟨fun m hm => ?_, fun qm hqm => ?_⟩
  · have hack := hdelivering.bounded.acks m.number (List.mem_map_of_mem hm)
    have hle : m.number ≤ w.next start := hack.2
    unfold wakeSeq
    split <;> omega
  · have hgiven := h.given qm hqm
    omega

/-- A message comes in, after the notices that are due with it. -/
theorem receive (h : Noticed start w) (hdelivering : Delivering start w) (hstart : 2 ≤ start)
    (hbound : w.host.sendSeq < noReceiveSeq - 1) {m : Numbered Response}
    {rest : List (Numbered Response)} (hfront : w.toHost = m :: rest) :
    Noticed start { w with host := handleMessage m.message w.host, toHost := rest } := by
  have hbase := hdelivering.base
  obtain ⟨hlow, hhigh, sq, hacked, timer, heq⟩ := hdelivering.handleMessage_spec hfront
  have hmem : m ∈ w.toHost := by rw [hfront]; exact List.mem_cons_self
  have hrest : ∀ m' ∈ rest, m' ∈ w.toHost := fun m' hm' => by
    rw [hfront]
    exact List.mem_cons_of_mem _ hm'
  have hwakes := h.wakes
  rw [hfront] at hwakes
  obtain ⟨hafter, hwakes⟩ := List.pairwise_cons.mp hwakes
  have hdata : m.message.len = messageMin ↔ m.message.payload = [] := by
    rw [← List.length_eq_zero_iff]
    unfold Response.len messageHeaderSize messageTrailerSize messageMin
    omega
  -- the number does not wrap
  have hwake : u64 (m.number - 1 - if m.message.len > messageMin then 1 else 0) = wakeSeq m := by
    have hmore : m.message.len > messageMin ↔ ¬ m.message.payload = [] := by
      rw [← hdata]
      unfold Response.len messageHeaderSize messageTrailerSize messageMin
      omega
    unfold noReceiveSeq at hbound
    unfold u64 wakeSeq
    by_cases hempty : m.message.payload = []
    · rw [if_neg (by rw [hmore]; exact fun hne => hne hempty), if_pos hempty]
      omega
    · rw [if_pos (hmore.mpr hempty), if_neg hempty]
      omega
  rw [hwake] at heq
  have hqueue : (handleMessage m.message w.host).receiveQueue = w.host.receiveQueue ++
      ((w.host.notifyQueue.takeWhile fun qm => decide (qm.reqClock ≤ wakeSeq m)).map .notify ++
        if m.message.payload = [] then [] else [.data m.message]) := by
    rw [heq]
    simp only [checkNotify, hacked.receiveQueue, hacked.notifyQueue, hdata, List.append_assoc]
  have hnotify : (handleMessage m.message w.host).notifyQueue =
      w.host.notifyQueue.dropWhile fun qm => decide (qm.reqClock ≤ wakeSeq m) := by
    rw [heq]
    simp only [checkNotify, hacked.notifyQueue]
  have hreceive : (handleMessage m.message w.host).receiveSeq = m.number := by
    rw [heq]; exact hacked.receiveSeq
  have hdue : ∀ qm ∈ w.host.notifyQueue.takeWhile fun qm => decide (qm.reqClock ≤ wakeSeq m),
      qm.reqClock ≤ wakeSeq m := by
    intro qm hqm
    have hle := List.mem_takeWhile_imp hqm
    exact of_decide_eq_true hle
  have hwakele : wakeSeq m ≤ m.number - 1 := by
    unfold wakeSeq
    split <;> omega
  generalize hD : (w.host.notifyQueue.takeWhile fun qm => decide (qm.reqClock ≤ wakeSeq m)) = due
    at hqueue hdue
  have hreceived : World.received
      { w with host := handleMessage m.message w.host, toHost := rest } =
      w.received ++ (due.map .notify ++
        if m.message.payload = [] then [] else [.data m.message]) := by
    simp only [World.received, hqueue, List.append_assoc]
  have hnoticed : World.noticed
      { w with host := handleMessage m.message w.host, toHost := rest } = w.noticed ++ due := by
    have hsome : (due.map Received.notify).filterMap noticeOf = due := by
      rw [List.filterMap_map]
      exact List.filterMap_some
    rw [World.noticed, hreceived, List.filterMap_append, List.filterMap_append, hsome]
    split
    · rw [List.filterMap_nil, List.append_nil]
      rfl
    · rw [List.filterMap_cons, noticeOf, List.filterMap_nil, List.append_nil]
      rfl
  refine ⟨?_, ?_, ?_, ?_, hwakes, fun m' hm' => h.origin m' (hrest m' hm'), fun hb => ?_⟩
  · rw [hnoticed, ← h.all, List.append_assoc]
    simp only [hnotify, ← hD, List.takeWhile_append_dropWhile]
  · rw [hnoticed]
    intro qm hqm
    simp only [hreceive]
    rcases List.mem_append.mp hqm with hqm | hqm
    · have hgiven := h.given qm hqm
      omega
    · have hle := hdue qm hqm
      omega
  · rw [hreceived]
    have hnew : ∀ b ∈ (due.map Received.notify ++
        if m.message.payload = [] then [] else [.data m.message]), (∃ qm, b = .notify qm) ∨
          m.message.payload ≠ [] ∧ b = .data m.message := by
      intro b hb
      rcases List.mem_append.mp hb with hb | hb
      · obtain ⟨qm, -, rfl⟩ := List.mem_map.mp hb
        exact .inl ⟨qm, rfl⟩
      · split at hb
        · cases hb
        · rename_i hne
          exact .inr ⟨hne, List.mem_singleton.mp hb⟩
    refine List.pairwise_append.mpr ⟨h.order, List.pairwise_append.mpr ⟨?_, ?_, ?_⟩, ?_⟩
    · refine List.pairwise_of_forall_mem_list fun a _ b hb => ?_
      obtain ⟨qm, -, rfl⟩ := List.mem_map.mp hb
      exact later_notify a qm
    · split
      · exact List.Pairwise.nil
      · exact List.pairwise_singleton _ _
    · intro a ha b hb qm n hqm hn
      rcases hnew b (List.mem_append_right _ hb) with ⟨qm', rfl⟩ | ⟨hne, rfl⟩
      · cases hn
      · -- a response gives no notice of the block that it belongs to
        obtain ⟨due', hdue', rfl⟩ := List.mem_map.mp ha
        obtain rfl := Option.some.inj hqm
        have hle := hdue _ hdue'
        rw [wakeSeq, if_neg hne] at hle
        have horigin := (h.origin m hmem n hn).1
        omega
    · intro a ha b hb
      rcases hnew b hb with ⟨qm', rfl⟩ | ⟨hne, rfl⟩
      · exact later_notify a qm'
      · intro qm n hqm hn
        exact h.inFlight m hmem n hn qm (List.mem_filterMap.mpr ⟨a, ha, hqm⟩)
  · rw [hnoticed]
    intro m' hm' n hn qm hqm
    rcases List.mem_append.mp hqm with hqm | hqm
    · exact h.inFlight m' (hrest m' hm') n hn qm hqm
    · exact lt_of_le_of_lt (hdue qm hqm) (hafter m' hm' n hn)
  · obtain ⟨hall, hgiven⟩ := h.dispatching hb
    refine ⟨fun m' hm' => hall m' (hrest m' hm'), ?_⟩
    rw [hnoticed]
    intro qm hqm
    rcases List.mem_append.mp hqm with hqm | hqm
    · exact hgiven qm hqm
    · exact lt_of_le_of_lt (hdue qm hqm) (hall m hmem)

theorem command (h : Noticed start w) (hdelivering : Delivering start w) {r : ClockReading}
    (hstep : w.command r = some w') : Noticed start w' := by
  obtain ⟨hlink, -, -, hnotify, -⟩ := checkSendCommand_readied r w.host
  obtain ⟨sq, heq, hw⟩ := World.command_cases hstep
  rw [heq] at hlink hnotify
  have hready : Noticed start { w with host := sq } := by
    refine h.lose ?_ hnotify hlink.receiveSeq rfl rfl (.refl _) id
    simp only [World.received, hlink.receiveQueue]
  rcases hw with rfl | ⟨host, built, -, hbuild, rfl⟩
  · exact hready
  · have hlinked : Delivering start { w with host := sq } :=
      hdelivering.setHost hlink.sendSeq hlink.receiveSeq hlink.sentQueue
    rw [← hlink.sendSeq]
    exact hready.send hlinked (buildAndSendCommand_sent sq _ hbuild)

theorem findBlock (h : Noticed start w) (hdelivering : Delivering start w)
    (hstep : w.findBlock start = some w') : Noticed start w' := by
  obtain ⟨hphase, m, rest, -, ⟨block, command, -, -, -, rfl⟩ | ⟨command, -, hw⟩⟩ :=
    World.findBlock_cases hstep
  · exact h.accept hdelivering block command
  · have hrefuse : Noticed start
        { w with mcu := { w.mcu with command := command }, toMcu := rest } :=
      h.lose rfl rfl rfl rfl rfl (.refl _) id
    rcases hw with rfl | rfl
    · exact hrefuse
    · refine hrefuse.emit fun hb => ?_
      rw [hphase] at hb
      cases hb

theorem pull (h : Noticed start w) {qm : Received} {host : SerialQueue}
    (hpull : serialqueuePull w.host = some (qm, host)) :
    Noticed start { w with host := host, pulled := w.pulled ++ [qm] } := by
  unfold serialqueuePull at hpull
  split at hpull
  · cases hpull
  · rename_i first rest hqueue
    obtain ⟨rfl, rfl⟩ := Prod.mk.inj (Option.some.inj hpull)
    refine h.lose ?_ rfl rfl rfl rfl (.refl _) id
    simp only [World.received, hqueue, List.append_assoc, List.singleton_append]

/-- Every event keeps the invariant. -/
theorem step {console : Console} (h : Noticed start w) (hdelivering : Delivering start w)
    (hstart : 2 ≤ start) (hbound : w.host.sendSeq < noReceiveSeq - 1) {e : Event}
    (hstep : w.step start console e = some w') : Noticed start w' := by
  cases e with
  | sendBatch q msgs =>
    obtain rfl := Option.some.inj hstep
    obtain ⟨hnotify, hreceive⟩ := sendBatch_notices q msgs w.host
    refine h.lose ?_ hnotify (sendBatch_link q msgs w.host).receiveSeq rfl rfl (.refl _) id
    simp only [World.received, hreceive]
  | command r => exact h.command hdelivering hstep
  | receive =>
    simp only [World.step] at hstep
    split at hstep
    · cases hstep
    · rename_i m rest hfront
      obtain rfl := Option.some.inj hstep
      exact h.receive hdelivering hstart hbound hfront
  | retransmit =>
    simp only [World.step, World.retransmit] at hstep
    split at hstep
    · cases hstep
    · obtain rfl := Option.some.inj hstep
      exact h.lose rfl rfl rfl rfl rfl (.refl _) id
  | pull =>
    simp only [World.step, Option.map_eq_some_iff] at hstep
    obtain ⟨⟨qm, host⟩, hpull, rfl⟩ := hstep
    exact h.pull hpull
  | findBlock => exact h.findBlock hdelivering hstep
  | respond payload =>
    simp only [World.step] at hstep
    split at hstep
    · cases hstep
    · rename_i hne
      obtain rfl := Option.some.inj hstep
      exact h.emit fun _ => hne
  | pop =>
    simp only [World.step] at hstep
    split at hstep
    · obtain rfl := Option.some.inj hstep
      exact h.lose rfl rfl rfl rfl rfl (.refl _) fun hb => by cases hb
    · obtain rfl := Option.some.inj hstep
      exact h.lose rfl rfl rfl rfl rfl (.refl _) fun hb => by cases hb
    · cases hstep
  | ack =>
    simp only [World.step] at hstep
    split at hstep
    · obtain rfl := Option.some.inj hstep
      exact h.ack (by decide)
    · obtain rfl := Option.some.inj hstep
      exact h.ack (by decide)
    · cases hstep
  | loseToMcu i =>
    simp only [World.step] at hstep
    split at hstep
    · obtain rfl := Option.some.inj hstep
      exact h.lose rfl rfl rfl rfl rfl (.refl _) id
    · cases hstep
  | garble i =>
    simp only [World.step] at hstep
    split at hstep
    · obtain rfl := Option.some.inj hstep
      exact h.lose rfl rfl rfl rfl rfl (.refl _) id
    · cases hstep
  | loseToHost i =>
    obtain rfl := Option.some.inj hstep
    exact h.lose rfl rfl rfl rfl rfl (List.eraseIdx_sublist _ _) id

end Noticed

/-! ## Runs -/

theorem LinkRun.noticed {console : Console} {w w' : World} {es : List Event}
    (hrun : LinkRun w.host.receiveSeq console w es w') (h : Quiet w)
    (hstart : 2 ≤ w.host.receiveSeq) :
    Delivering w.host.receiveSeq w' ∧ Noticed w.host.receiveSeq w' := by
  have hinit : Delivering w.host.receiveSeq w ∧ Noticed w.host.receiveSeq w :=
    ⟨.init h.toSynchronised, .init h⟩
  refine Run.invariant (P := fun v => Delivering w.host.receiveSeq v ∧
    Noticed w.host.receiveSeq v) hrun hinit ?_
  rintro s e t ⟨hdelivering, hnoticed⟩ ⟨hbound, hstep⟩
  exact ⟨hdelivering.step hbound hstep, hnoticed.step hdelivering hstart hbound hstep⟩

/-- Notifications are given at most once and in the order of transmission, for blocks that
the mcu has dispatched, and after each only responses of later blocks follow. -/
theorem notifications_in_order {console : Console} {w w' : World} {es : List Event} (h : Quiet w)
    (hstart : 2 ≤ w.host.receiveSeq) (hrun : LinkRun w.host.receiveSeq console w es w') :
    w'.pulled.filterMap noticeOf <+: noticesFrom w.host.receiveSeq w'.built ∧
      (∀ qm ∈ w'.pulled.filterMap noticeOf, qm.reqClock < w'.next w.host.receiveSeq) ∧
      w'.pulled.Pairwise Later := by
  obtain ⟨hdelivering, hnoticed⟩ := hrun.noticed h hstart
  have hrange := hdelivering.window_range
  have hsplit : w'.noticed =
      w'.pulled.filterMap noticeOf ++ w'.host.receiveQueue.filterMap noticeOf := by
    rw [World.noticed, World.received, List.filterMap_append]
  refine ⟨?_, fun qm hqm => ?_, ?_⟩
  · rw [← hnoticed.all, hsplit, List.append_assoc]
    exact List.prefix_append _ _
  · have hgiven := hnoticed.given qm (by rw [hsplit]; exact List.mem_append_left _ hqm)
    omega
  · exact (List.pairwise_append.mp hnoticed.order).1

/-- The run with a lost block: the response of the block comes first, then its notice. -/
theorem notifications_in_order_lossy :
    ∃ w, LinkRun 2 .serialIrq (linked connectedHost) lossyEvents w ∧
      w.pulled = [.data ⟨3, [9], some 2⟩, .notify ⟨[1, 2], 0, 2, 7⟩] ∧
      w.pulled.Pairwise Later := by
  obtain ⟨w, hrun, -, hpulled⟩ := exists_lossyRun
  have hquiet : Quiet (linked connectedHost) := ⟨synchronised_connectedHost, rfl, rfl, rfl⟩
  exact ⟨w, hrun, hpulled, (notifications_in_order hquiet (by decide) hrun).2.2⟩

end FlsunT1.Link
