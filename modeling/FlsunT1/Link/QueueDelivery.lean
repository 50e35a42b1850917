/-
  Link/QueueDelivery.lean --- what the mcu receives of each command queue.

  The host of a run is at each time a serialqueue that keeps the discipline of its
  command queues.  With the delivery of its blocks, the messages of a command queue
  that the mcu was given are the first ones that were queued, and the others are
  still held by the host.
-/
import FlsunT1.Link.Delivery

set_option autoImplicit false

namespace FlsunT1.Link

open FlsunT1.Library FlsunT1.Chelper FlsunT1.Mcu

/-! ## What is queued and delivered -/

/-- The messages queued have 1 to 59 bytes and a priority. -/
def Event.Sendable : Event → Prop
  | .sendBatch _ msgs => ∀ qm ∈ msgs, qm.Sendable
  | _ => True

instance : (e : Event) → Decidable e.Sendable
  | .sendBatch _ msgs => inferInstanceAs (Decidable (∀ qm ∈ msgs, qm.Sendable))
  | .command _ | .receive | .retransmit | .pull | .findBlock | .respond _ | .pop | .ack
  | .loseToMcu _ | .garble _ | .loseToHost _ => inferInstanceAs (Decidable True)

/-- The messages of each command queue, after an event. -/
def noteQueued (queued : Nat → List QueueMessage) : Event → Nat → List QueueMessage
  | .sendBatch q msgs => Function.update queued q (queued q ++ msgs.map setMinClock)
  | _ => queued

namespace World

/-- The blocks that the mcu has dispatched, as they were built. -/
def delivered (w : World) : List Built := w.built.take w.dispatched.length

/-- The blocks that the mcu has not dispatched. -/
def undelivered (w : World) : List Built := w.built.drop w.dispatched.length

end World

/-- The messages of a command queue that are in blocks. -/
def messagesOf (q : Nat) (built : List Built) : List QueueMessage :=
  copiedFrom q (built.flatMap Built.copied)

theorem messagesOf_append (q : Nat) (built built' : List Built) :
    messagesOf q (built ++ built') = messagesOf q built ++ messagesOf q built' := by
  unfold messagesOf
  rw [List.flatMap_append, copiedFrom_append]

/-! ## The host of a run -/

/-- The host keeps the discipline, with what was queued since the start. -/
def Holds (w : World) (queued : Nat → List QueueMessage) : Prop :=
  Disciplined { sq := w.host, queued := queued, built := w.built }

namespace Holds

variable {start : Int} {console : Console} {w w' : World} {queued : Nat → List QueueMessage}

theorem congr (h : Holds w queued) (hhost : w'.host = w.host) (hbuilt : w'.built = w.built) :
    Holds w' queued := by
  unfold Holds
  rw [hhost, hbuilt]
  exact h

theorem call (h : Holds w queued) {op : QueueOp} (hallowed : QueueWorld.allowed op)
    {qw : QueueWorld}
    (hnext : QueueWorld.next { sq := w.host, queued := queued, built := w.built } op = .ok qw) :
    Disciplined qw := by
  obtain ⟨qw', heq, h'⟩ := Disciplined.next h hallowed
  rw [heq, Except.ok.injEq] at hnext
  exact hnext ▸ h'

theorem command (h : Holds w queued) {r : ClockReading} (hstep : w.command r = some w') :
    Holds w' queued := by
  obtain ⟨sq, heq, hw⟩ := World.command_cases hstep
  have hready : Holds { w with host := sq } queued := by
    refine h.call (show QueueWorld.allowed (.checkSend r) from trivial) ?_
    rw [← heq]
    rfl
  rcases hw with rfl | ⟨host, built, -, hbuild, rfl⟩
  · exact hready
  · refine hready.call (show QueueWorld.allowed .buildAndSend from trivial) ?_
    simp only [QueueWorld.next, hbuild, Except.map]

theorem receive (h : Holds w queued) (m : Response) :
    Holds { w with host := handleMessage m w.host } queued :=
  h.call (show QueueWorld.allowed (.receive m) from trivial) rfl

theorem pull (h : Holds w queued) {qm : Received} {host : SerialQueue}
    (hpull : serialqueuePull w.host = some (qm, host)) : Holds { w with host := host } queued := by
  refine h.call (show QueueWorld.allowed .pull from trivial) ?_
  simp only [QueueWorld.next, hpull, Option.elim_some]

theorem retransmit (h : Holds w queued) (hstep : w.retransmit = some w') : Holds w' queued := by
  unfold World.retransmit at hstep
  split at hstep
  · cases hstep
  · obtain rfl := Option.some.inj hstep
    exact h.call (show QueueWorld.allowed .retransmit from trivial) rfl

/-- Every event keeps the discipline, and what was queued follows. -/
theorem step (h : Holds w queued) {e : Event} (hsend : e.Sendable)
    (hstep : w.step start console e = some w') : Holds w' (noteQueued queued e) := by
  cases e with
  | sendBatch q msgs =>
    obtain rfl := Option.some.inj hstep
    exact h.call (show QueueWorld.allowed (.sendBatch q msgs) from hsend) rfl
  | command r => exact h.command hstep
  | receive =>
    simp only [World.step] at hstep
    split at hstep
    · cases hstep
    · obtain rfl := Option.some.inj hstep
      exact (h.receive _).congr rfl rfl
  | retransmit => exact h.retransmit hstep
  | pull =>
    simp only [World.step, Option.map_eq_some_iff] at hstep
    obtain ⟨⟨qm, host⟩, hpull, rfl⟩ := hstep
    exact (h.pull hpull).congr rfl rfl
  | findBlock =>
    obtain ⟨-, m, rest, -, ⟨block, command, -, -, -, rfl⟩ | ⟨command, -, rfl | rfl⟩⟩ :=
      World.findBlock_cases hstep
    · exact h.congr rfl rfl
    · exact h.congr rfl rfl
    · exact h.congr rfl rfl
  | respond payload =>
    simp only [World.step] at hstep
    split at hstep
    · cases hstep
    · obtain rfl := Option.some.inj hstep
      exact h.congr rfl rfl
  | pop =>
    simp only [World.step] at hstep
    split at hstep
    · obtain rfl := Option.some.inj hstep
      exact h.congr rfl rfl
    · obtain rfl := Option.some.inj hstep
      exact h.congr rfl rfl
    · cases hstep
  | ack =>
    simp only [World.step] at hstep
    split at hstep
    · obtain rfl := Option.some.inj hstep
      exact h.congr rfl rfl
    · obtain rfl := Option.some.inj hstep
      exact h.congr rfl rfl
    · cases hstep
  | loseToMcu i =>
    simp only [World.step] at hstep
    split at hstep
    · obtain rfl := Option.some.inj hstep
      exact h.congr rfl rfl
    · cases hstep
  | garble i =>
    simp only [World.step] at hstep
    split at hstep
    · obtain rfl := Option.some.inj hstep
      exact h.congr rfl rfl
    · cases hstep
  | loseToHost i =>
    obtain rfl := Option.some.inj hstep
    exact h.congr rfl rfl

end Holds

theorem LinkRun.holds {start : Int} {console : Console} {w w' : World} {es : List Event}
    (hrun : LinkRun start console w es w') (hsend : ∀ e ∈ es, e.Sendable)
    (hcounted : Counted w.host) (hbuilt : w.built = []) :
    Holds w' (es.foldl noteQueued fun q => (w.host.commandQueues q).waiting) := by
  have hinit : Holds w fun q => (w.host.commandQueues q).waiting :=
    { counted := hcounted
      order := by
        intro q
        simp only [QueueWorld.sent, hbuilt, List.flatMap_nil, copiedFrom, List.filter_nil,
          List.map_nil, List.nil_append]
      block := by
        intro b hb
        simp only [hbuilt] at hb
        cases hb }
  obtain ⟨queued, hqueued, h⟩ : ∃ queued, Run (fun a e b => b = noteQueued a e)
      (fun q => (w.host.commandQueues q).waiting) es queued ∧ Holds w' queued :=
    (hrun.and_events hsend).simulation hinit
      fun _ e _ a h hstep => ⟨noteQueued a e, rfl, h.step hstep.2 hstep.1.2⟩
  rw [Run.iff_foldl.mp hqueued] at h
  exact h

/-! ## Delivery -/

/-- The messages of every command queue are delivered once and in order.  Of all that
waited or was queued for it, the mcu was given a first part, bytes unchanged; the
rest is in blocks that the host keeps to send them again, or still waits. -/
theorem messages_delivered_in_order {console : Console} {ops : List QueueOp} {qw : QueueWorld}
    {w w' : World} {es : List Event} (hqueue : QueueRun (.init false) ops qw)
    (hhost : w.host = qw.sq) (h : Synchronised w) (hsend : ∀ e ∈ es, e.Sendable)
    (hrun : LinkRun w.host.receiveSeq console w es w') :
    (∀ q, messagesOf q w'.delivered ++ messagesOf q w'.undelivered ++
        (w'.host.commandQueues q).waiting =
      es.foldl noteQueued (fun q => (w.host.commandQueues q).waiting) q) ∧
    w'.dispatched.map Block.payload =
      w'.delivered.map (fun b => b.copied.flatMap (·.message.msg)) ∧
    w'.undelivered.map Built.block <:+ w'.host.sentQueue := by
  have hholds := hrun.holds hsend (hhost ▸ hqueue.disciplined.counted) h.built
  have hdelivering := hrun.delivering h
  refine ⟨fun q => ?_, ?_, ?_⟩
  · rw [← messagesOf_append]
    unfold World.delivered World.undelivered
    rw [List.take_append_drop]
    exact hholds.order q
  · -- the blocks dispatched are the first ones built, and hold the messages copied
    have hheld := List.prefix_iff_eq_take.mp hdelivering.dispatched
    rw [World.blocks, ← List.map_take] at hheld
    rw [hheld, List.map_map]
    refine List.map_congr_left fun b hb => ?_
    exact (hholds.block b (List.mem_of_mem_take hb)).1
  · rw [hdelivering.sentQueue, World.undelivered, List.map_drop]
    have hbase := hdelivering.base
    have hrange := hdelivering.window_range
    obtain ⟨k, hk⟩ : ∃ k, w'.dispatched.length =
        (w'.host.receiveSeq - w.host.receiveSeq).toNat + k :=
      Nat.exists_eq_add_of_le (by unfold World.next at hrange; omega)
    rw [hk, ← List.drop_drop]
    exact List.drop_suffix _ _

theorem queueRun_connectedHost :
    QueueRun (.init false) [.setReceiveWindow 192, .receive ⟨2, [], none⟩]
      { sq := connectedHost, queued := fun _ => [], built := [] } :=
  Run.cons ⟨trivial, rfl⟩ (Run.single ⟨trivial, rfl⟩)

/-- The run with a lost block delivers both messages. -/
theorem messages_delivered_in_order_lossy :
    ∃ w, LinkRun 2 .serialIrq (linked connectedHost) lossyEvents w ∧
      w.dispatched.map Block.payload = [[1, 2], [3]] ∧
      w.undelivered.map Built.block <:+ w.host.sentQueue := by
  obtain ⟨w, hrun, hdispatched, -⟩ := exists_lossyRun
  exact ⟨w, hrun, hdispatched, (messages_delivered_in_order queueRun_connectedHost rfl
    synchronised_connectedHost (by decide) hrun).2.2⟩

end FlsunT1.Link
