/-
  Chelper/CommandQueues.lean --- the discipline of the command queues.

  Messages move from the stalled list of their command queue to its ready list,
  and from there into a block.  The counters of serialqueue.c follow them, and so
  the scan for the next message never comes back with none while `ready_bytes`
  says that there is one.
-/
import FlsunT1.Chelper.SerialQueue
import FlsunT1.Library.Ensures
import FlsunT1.Library.Run
import FlsunT1.Library.Tally
import Mathlib.Algebra.Order.BigOperators.Group.List
import Mathlib.Tactic.Linarith

set_option autoImplicit false

namespace FlsunT1.Chelper

open FlsunT1.Library

/-! ## What is kept -/

/-- A message of 1 to 59 bytes that has a priority. -/
def QueueMessage.Sendable (qm : QueueMessage) : Prop :=
  1 ≤ qm.len ∧ qm.len ≤ messagePayloadMax ∧ qm.reqClock < serialMaxClock

instance (qm : QueueMessage) : Decidable qm.Sendable :=
  inferInstanceAs (Decidable (_ ∧ _ ∧ _))

/-- The messages of a command queue, in the order in which they are sent. -/
def CommandQueue.waiting (cq : CommandQueue) : List QueueMessage := cq.readyQueue ++ cq.stalledQueue

/-- The counters and links agree with the lists. -/
structure Counted (sq : SerialQueue) : Prop where
  nodup : sq.pendingQueues.Nodup
  linked : ∀ q, q ∈ sq.pendingQueues ↔ (sq.commandQueues q).waiting ≠ []
  ready : sq.readyBytes = tally sq.pendingQueues sq.commandQueues fun cq => totalLen cq.readyQueue
  stalled : sq.stalledBytes =
    tally sq.pendingQueues sq.commandQueues fun cq => totalLen cq.stalledQueue
  needAck : sq.needAckBytes = (sq.sentQueue.map Block.len).sum
  sendable : ∀ q, ∀ qm ∈ (sq.commandQueues q).waiting, qm.Sendable

/-- The fields of the link to the mcu are the same. -/
structure SameLink (sq sq' : SerialQueue) : Prop where
  receiveWindow : sq'.receiveWindow = sq.receiveWindow
  sendSeq : sq'.sendSeq = sq.sendSeq
  receiveSeq : sq'.receiveSeq = sq.receiveSeq
  lastAckSeq : sq'.lastAckSeq = sq.lastAckSeq
  sentQueue : sq'.sentQueue = sq.sentQueue
  needAckBytes : sq'.needAckBytes = sq.needAckBytes
  lastAckBytes : sq'.lastAckBytes = sq.lastAckBytes
  receiveQueue : sq'.receiveQueue = sq.receiveQueue

theorem SameLink.refl (sq : SerialQueue) : SameLink sq sq := ⟨rfl, rfl, rfl, rfl, rfl, rfl, rfl, rfl⟩

theorem SameLink.trans {sq sq' sq'' : SerialQueue} (h : SameLink sq sq') (h' : SameLink sq' sq'') :
    SameLink sq sq'' :=
  ⟨h'.receiveWindow.trans h.receiveWindow, h'.sendSeq.trans h.sendSeq,
    h'.receiveSeq.trans h.receiveSeq, h'.lastAckSeq.trans h.lastAckSeq,
    h'.sentQueue.trans h.sentQueue, h'.needAckBytes.trans h.needAckBytes,
    h'.lastAckBytes.trans h.lastAckBytes, h'.receiveQueue.trans h.receiveQueue⟩

@[simp] theorem totalLen_nil : totalLen [] = 0 := rfl

@[simp] theorem totalLen_cons (qm : QueueMessage) (msgs : List QueueMessage) :
    totalLen (qm :: msgs) = qm.len + totalLen msgs := rfl

@[simp] theorem totalLen_append (msgs msgs' : List QueueMessage) :
    totalLen (msgs ++ msgs') = totalLen msgs + totalLen msgs' := by
  simp [totalLen]

theorem QueueMessage.len_nonneg (qm : QueueMessage) : 0 ≤ qm.len := Int.natCast_nonneg _

theorem eq_nil_of_totalLen {msgs : List QueueMessage} (h : ∀ qm ∈ msgs, qm.Sendable)
    (hzero : totalLen msgs = 0) : msgs = [] := by
  cases msgs with
  | nil => rfl
  | cons qm msgs =>
    have hpos := (h qm (by simp)).1
    have hrest : 0 ≤ totalLen msgs := List.sum_nonneg fun x hx => by
      obtain ⟨m, -, rfl⟩ := List.mem_map.mp hx
      exact m.len_nonneg
    rw [totalLen_cons] at hzero
    omega

namespace Counted

variable {sq : SerialQueue}

/-- A command queue changes what is on its lists, but not whether there is any. -/
theorem update (h : Counted sq) {q : Nat} {cq : CommandQueue} (hq : q ∈ sq.pendingQueues)
    (hne : cq.waiting ≠ []) (hsend : ∀ qm ∈ cq.waiting, qm.Sendable) {readyBytes stalledBytes : Int}
    (hready : readyBytes - totalLen cq.readyQueue =
      sq.readyBytes - totalLen (sq.commandQueues q).readyQueue)
    (hstalled : stalledBytes - totalLen cq.stalledQueue =
      sq.stalledBytes - totalLen (sq.commandQueues q).stalledQueue) :
    Counted
      { sq with
        commandQueues := Function.update sq.commandQueues q cq
        readyBytes := readyBytes
        stalledBytes := stalledBytes } where
  nodup := h.nodup
  linked := by
    intro q'
    by_cases hqq : q' = q
    · subst hqq
      simp [hq, hne]
    · simp only [Function.update_of_ne hqq]
      exact h.linked q'
  ready := by
    have htally := tally_update (f := sq.commandQueues) (b := cq)
      (g := fun cq => totalLen cq.readyQueue) h.nodup hq
    have hold := h.ready
    simp only at htally ⊢
    omega
  stalled := by
    have htally := tally_update (f := sq.commandQueues) (b := cq)
      (g := fun cq => totalLen cq.stalledQueue) h.nodup hq
    have hold := h.stalled
    simp only at htally ⊢
    omega
  needAck := h.needAck
  sendable := by
    intro q'
    by_cases hqq : q' = q
    · subst hqq
      simpa using hsend
    · simp only [Function.update_of_ne hqq]
      exact h.sendable q'

/-! ## Moving stalled messages -/

end Counted

/-- Moving messages keeps their order, and the counters follow. -/
theorem moveStalled_spec (ackClock : Int) : ∀ (stalled ready : List QueueMessage)
    (stalledBytes readyBytes : Int),
    let l := moveStalled ackClock stalled ready stalledBytes readyBytes
    l.cq.waiting = ready ++ stalled ∧
      l.readyBytes - totalLen l.cq.readyQueue = readyBytes - totalLen ready ∧
      l.stalledBytes - totalLen l.cq.stalledQueue = stalledBytes - totalLen stalled := by
  intro stalled
  induction stalled with
  | nil => intro ready stalledBytes readyBytes; exact ⟨rfl, rfl, rfl⟩
  | cons qm rest ih =>
    intro ready stalledBytes readyBytes
    simp only [moveStalled]
    split
    · exact ⟨rfl, rfl, rfl⟩
    · obtain ⟨hwaiting, hready, hstalled⟩ :=
        ih (ready ++ [qm]) (stalledBytes - qm.len) (readyBytes + qm.len)
      refine ⟨by rw [hwaiting, List.append_assoc]; rfl, ?_, ?_⟩
      · rw [hready, totalLen_append, totalLen_cons, totalLen_nil]
        omega
      · rw [hstalled, totalLen_cons]
        omega

/-- What `check_send_command` may do to the queues: messages get ready. -/
structure Readied (sq sq' : SerialQueue) : Prop where
  link : SameLink sq sq'
  pending : sq'.pendingQueues = sq.pendingQueues
  waiting : ∀ q, (sq'.commandQueues q).waiting = (sq.commandQueues q).waiting
  notifyQueue : sq'.notifyQueue = sq.notifyQueue
  counted : Counted sq → Counted sq'

theorem Readied.trans {sq sq' sq'' : SerialQueue} (h : Readied sq sq') (h' : Readied sq' sq'') :
    Readied sq sq'' :=
  ⟨h.link.trans h'.link, h'.pending.trans h.pending, fun q => (h'.waiting q).trans (h.waiting q),
    h'.notifyQueue.trans h.notifyQueue, fun hc => h'.counted (h.counted hc)⟩

theorem Readied.kick (sq : SerialQueue) (clock : Int) :
    Readied sq { sq with needKickClock := clock } :=
  ⟨⟨rfl, rfl, rfl, rfl, rfl, rfl, rfl, rfl⟩, rfl, fun _ => rfl, rfl,
    fun h => ⟨h.nodup, h.linked, h.ready, h.stalled, h.needAck, h.sendable⟩⟩

theorem Readied.refl (sq : SerialQueue) : Readied sq sq :=
  ⟨.refl sq, rfl, fun _ => rfl, rfl, id⟩

theorem checkQueue_readied (r : ClockReading) (l : CheckLoop) {q : Nat}
    (hq : q ∈ l.sq.pendingQueues) : Readied l.sq (checkQueue r l q).sq := by
  obtain ⟨hwaiting, hready, hstalled⟩ := moveStalled_spec r.ackClock
    (l.sq.commandQueues q).stalledQueue (l.sq.commandQueues q).readyQueue l.sq.stalledBytes
    l.sq.readyBytes
  refine ⟨⟨rfl, rfl, rfl, rfl, rfl, rfl, rfl, rfl⟩, rfl, fun q' => ?_, rfl, fun h => ?_⟩
  · by_cases hqq : q' = q
    · subst hqq
      simp only [checkQueue, Function.update_self]
      exact hwaiting
    · simp only [checkQueue, Function.update_of_ne hqq]
  · have hsend := h.sendable q
    have hne := (h.linked q).mp hq
    unfold CommandQueue.waiting at hsend hne
    rw [← hwaiting] at hsend hne
    exact h.update hq hne hsend hready hstalled

theorem foldl_checkQueue_readied (r : ClockReading) : ∀ (qs : List Nat) (l : CheckLoop),
    (∀ q ∈ qs, q ∈ l.sq.pendingQueues) → Readied l.sq (qs.foldl (checkQueue r) l).sq := by
  intro qs
  induction qs with
  | nil => intro l _; exact .refl _
  | cons q qs ih =>
    intro l hqs
    have hfirst := checkQueue_readied r l (hqs q (by simp))
    refine hfirst.trans (ih (checkQueue r l q) fun q' hq' => ?_)
    rw [hfirst.pending]
    exact hqs q' (by simp [hq'])

/-- `check_send_command` only makes messages ready. -/
theorem checkSendCommand_readied (r : ClockReading) (sq : SerialQueue) :
    Readied sq (checkSendCommand r sq).1 := by
  have hloop := foldl_checkQueue_readied r sq.pendingQueues
    { sq := sq, minStalledClock := serialMaxClock, minReadyClock := serialMaxClock }
    fun _ hq => hq
  simp only at hloop
  unfold checkSendCommand
  split
  · exact .refl sq
  · simp only
    split
    · exact hloop
    · split
      · split
        · exact hloop
        · exact hloop.trans (.kick _ _)
      · split
        · exact hloop
        · exact hloop.trans (.kick _ _)

/-! ## Building blocks -/

/-- The message found is the first ready one of its queue. -/
theorem findReady_first {commandQueues : Nat → CommandQueue} : ∀ (qs : List Nat) (minClock : Int)
    (found : Option Copied) (c : Copied), findReady commandQueues qs minClock found = some c →
      found = some c ∨ c.queue ∈ qs ∧
        ∃ rest, (commandQueues c.queue).readyQueue = c.message :: rest := by
  intro qs
  induction qs with
  | nil => intro minClock found c h; exact .inl h
  | cons q qs ih =>
    intro minClock found c h
    have hrest : ∀ minClock found, findReady commandQueues qs minClock found = some c →
        found = some c ∨ c.queue ∈ q :: qs ∧
          ∃ rest, (commandQueues c.queue).readyQueue = c.message :: rest := by
      intro minClock found h
      rcases ih _ _ _ h with hfound | ⟨hmem, hfirst⟩
      · exact .inl hfound
      · exact .inr ⟨List.mem_cons_of_mem _ hmem, hfirst⟩
    simp only [findReady] at h
    split at h
    · exact hrest _ _ h
    · rename_i m rest hready
      split at h
      · rcases hrest _ _ h with hfound | hmem
        · rw [Option.some.injEq] at hfound
          subst hfound
          exact .inr ⟨by simp, rest, hready⟩
        · exact .inr hmem
      · exact hrest _ _ h

theorem findReady_isSome_of_found {commandQueues : Nat → CommandQueue} : ∀ (qs : List Nat)
    (minClock : Int) (found : Option Copied), found.isSome →
      (findReady commandQueues qs minClock found).isSome := by
  intro qs
  induction qs with
  | nil => intro minClock found h; exact h
  | cons q qs ih =>
    intro minClock found h
    simp only [findReady]
    split
    · exact ih _ _ h
    · split
      · exact ih _ _ rfl
      · exact ih _ _ h

theorem findReady_isSome {commandQueues : Nat → CommandQueue} : ∀ (qs : List Nat) (q : Nat)
    (m : QueueMessage) (rest : List QueueMessage), q ∈ qs →
      (commandQueues q).readyQueue = m :: rest → m.reqClock < serialMaxClock →
      (findReady commandQueues qs serialMaxClock none).isSome := by
  intro qs
  induction qs with
  | nil => intro q m rest h; cases h
  | cons q' qs ih =>
    intro q m rest hq hready hclock
    simp only [findReady]
    rcases List.mem_cons.mp hq with heq | hq
    · subst heq
      rw [hready]
      simp only [hclock, if_true]
      exact findReady_isSome_of_found _ _ _ rfl
    · split
      · exact ih q m rest hq hready hclock
      · split
        · exact findReady_isSome_of_found _ _ _ rfl
        · exact ih q m rest hq hready hclock

/-- While `ready_bytes` is not zero the scan finds a message. -/
theorem Counted.findReady {sq : SerialQueue} (h : Counted sq) (hready : sq.readyBytes ≠ 0) :
    ∃ c rest, findReady sq.commandQueues sq.pendingQueues serialMaxClock none = some c ∧
      c.queue ∈ sq.pendingQueues ∧
      (sq.commandQueues c.queue).readyQueue = c.message :: rest ∧ c.message.Sendable := by
  rw [h.ready] at hready
  obtain ⟨q, hq, hne⟩ := exists_of_tally_ne_zero hready
  cases hlist : (sq.commandQueues q).readyQueue with
  | nil => rw [hlist] at hne; exact absurd rfl hne
  | cons m rest =>
    have hm : m.Sendable := h.sendable q m (by simp [CommandQueue.waiting, hlist])
    obtain ⟨c, hc⟩ := Option.isSome_iff_exists.mp (findReady_isSome _ q m rest hq hlist hm.2.2)
    rcases findReady_first _ _ _ _ hc with hnone | ⟨hmem, rest', hfirst⟩
    · cases hnone
    · exact ⟨c, rest', hc, hmem, hfirst,
        h.sendable c.queue c.message (by simp [CommandQueue.waiting, hfirst])⟩

/-- The messages of a command queue that were copied. -/
def copiedFrom (q : Nat) (copied : List Copied) : List QueueMessage :=
  (copied.filter (·.queue = q)).map Copied.message

theorem copiedFrom_append (q : Nat) (copied copied' : List Copied) :
    copiedFrom q (copied ++ copied') = copiedFrom q copied ++ copiedFrom q copied' := by
  simp [copiedFrom]

section CopyMessage

variable {sq : SerialQueue} {c : Copied} {rest : List QueueMessage}

theorem copyMessage_waiting (hfirst : (sq.commandQueues c.queue).readyQueue = c.message :: rest)
    (q : Nat) : copiedFrom q [c] ++ ((copyMessage c sq).commandQueues q).waiting =
      (sq.commandQueues q).waiting := by
  by_cases hq : c.queue = q
  · subst hq
    simp [copiedFrom, copyMessage, CommandQueue.waiting, hfirst]
  · simp [copiedFrom, copyMessage, hq, Function.update_of_ne (Ne.symm hq)]

theorem copyMessage_counted (h : Counted sq) (hmem : c.queue ∈ sq.pendingQueues)
    (hfirst : (sq.commandQueues c.queue).readyQueue = c.message :: rest) :
    Counted (copyMessage c sq) := by
  have hready := tally_update (f := sq.commandQueues)
    (b := { sq.commandQueues c.queue with readyQueue := rest })
    (g := fun cq => totalLen cq.readyQueue) h.nodup hmem
  have hstalled := tally_update (f := sq.commandQueues)
    (b := { sq.commandQueues c.queue with readyQueue := rest })
    (g := fun cq => totalLen cq.stalledQueue) h.nodup hmem
  have hold := h.ready
  have hold' := h.stalled
  simp only [hfirst, totalLen_cons] at hready hstalled
  have hwaiting := copyMessage_waiting hfirst
  have hsend : ∀ q, ∀ qm ∈ ((copyMessage c sq).commandQueues q).waiting, qm.Sendable := by
    intro q qm hqm
    refine h.sendable q qm ?_
    rw [← hwaiting q]
    exact List.mem_append_right _ hqm
  by_cases hempty : rest = [] ∧ (sq.commandQueues c.queue).stalledQueue = []
  · -- the queue is empty now, and is unlinked
    have heraseReady := tally_erase
      (f := Function.update sq.commandQueues c.queue
        { sq.commandQueues c.queue with readyQueue := rest })
      (g := fun cq => totalLen cq.readyQueue) hmem
    have heraseStalled := tally_erase
      (f := Function.update sq.commandQueues c.queue
        { sq.commandQueues c.queue with readyQueue := rest })
      (g := fun cq => totalLen cq.stalledQueue) hmem
    simp only [Function.update_self, hempty.1, hempty.2, totalLen_nil] at heraseReady heraseStalled
    simp only [hempty.1, hempty.2, totalLen_nil] at hready hstalled
    refine ⟨?_, fun q => ?_, ?_, ?_, h.needAck, hsend⟩
    · simp only [copyMessage, hfirst, List.tail_cons, hempty, and_self, if_true]
      exact h.nodup.erase _
    · simp only [copyMessage, hfirst, List.tail_cons, hempty, and_self, if_true]
      by_cases hq : q = c.queue
      · subst hq
        simp [h.nodup.mem_erase_iff, CommandQueue.waiting]
      · rw [Function.update_of_ne hq, h.nodup.mem_erase_iff, h.linked q]
        simp [hq]
    · simp only [copyMessage, hfirst, List.tail_cons, hempty, and_self, if_true]
      omega
    · simp only [copyMessage, hfirst, List.tail_cons, hempty, and_self, if_true]
      omega
  · refine ⟨?_, fun q => ?_, ?_, ?_, h.needAck, hsend⟩
    · simp only [copyMessage, hfirst, List.tail_cons, hempty, if_false]
      exact h.nodup
    · simp only [copyMessage, hfirst, List.tail_cons, hempty, if_false]
      by_cases hq : q = c.queue
      · subst hq
        simp only [hmem, true_iff, Function.update_self, CommandQueue.waiting, ne_eq,
          List.append_eq_nil_iff]
        exact hempty
      · rw [Function.update_of_ne hq]
        exact h.linked q
    · simp only [copyMessage, hfirst, List.tail_cons, hempty, if_false]
      omega
    · simp only [copyMessage, hfirst, List.tail_cons, hempty, if_false]
      omega

theorem copyMessage_readyCount (h : Counted sq) (hmem : c.queue ∈ sq.pendingQueues)
    (hfirst : (sq.commandQueues c.queue).readyQueue = c.message :: rest) :
    (copyMessage c sq).readyCount + 1 = sq.readyCount := by
  have hready := tally_update (f := sq.commandQueues)
    (b := { sq.commandQueues c.queue with readyQueue := rest })
    (g := fun cq => cq.readyQueue.length) h.nodup hmem
  simp only [hfirst, List.length_cons] at hready
  have hcount : ∀ sq : SerialQueue, sq.readyCount =
      tally sq.pendingQueues sq.commandQueues fun cq => cq.readyQueue.length := fun _ => rfl
  rw [hcount, hcount]
  by_cases hempty : rest = [] ∧ (sq.commandQueues c.queue).stalledQueue = []
  · have herase := tally_erase
      (f := Function.update sq.commandQueues c.queue
        { sq.commandQueues c.queue with readyQueue := rest })
      (g := fun cq => cq.readyQueue.length) hmem
    simp only [Function.update_self, hempty.1, hempty.2, List.length_nil] at herase hready
    simp only [copyMessage, hfirst, List.tail_cons, hempty, and_self, if_true]
    omega
  · simp only [copyMessage, hfirst, List.tail_cons, hempty, if_false]
    omega

end CopyMessage

theorem copyMessage_link (c : Copied) (sq : SerialQueue) : SameLink sq (copyMessage c sq) :=
  ⟨rfl, rfl, rfl, rfl, rfl, rfl, rfl, rfl⟩

/-- The messages of a block whose notification is asked for, with the number of the
block. -/
def notices (seq : Int) (copied : List Copied) : List QueueMessage :=
  (copied.filter (·.message.notifyId ≠ 0)).map fun c => { c.message with reqClock := seq }

/-- The bytes of the messages copied. -/
def copiedLen (copied : List Copied) : Int := totalLen (copied.map Copied.message)

/-- What filling a block leaves as it was, and what it adds. -/
structure Filled (l : BlockLoop) (l' : BlockLoop) (copied : List Copied) : Prop where
  copied_eq : l'.copied = l.copied ++ copied
  link : SameLink l.sq l'.sq
  notifyQueue : l'.sq.notifyQueue = l.sq.notifyQueue ++ notices l.sq.sendSeq copied
  len_eq : l'.len = l.len + copiedLen copied
  len_le : l.len ≤ messageMax - messageTrailerSize → l'.len ≤ messageMax - messageTrailerSize

theorem Filled.refl (l : BlockLoop) : Filled l l [] :=
  ⟨(List.append_nil _).symm, .refl _, (List.append_nil _).symm, (add_zero _).symm, id⟩

theorem Filled.cons {l l' : BlockLoop} {c : Copied} {copied : List Copied}
    (hlen : l.len + c.message.len ≤ messageMax - messageTrailerSize)
    (h : Filled
      { sq := copyMessage c l.sq, len := l.len + c.message.len, copied := l.copied ++ [c] } l'
      copied) : Filled l l' (c :: copied) := by
  refine ⟨by rw [h.copied_eq, List.append_assoc]; rfl,
    .trans (copyMessage_link c l.sq) h.link, ?_, ?_, fun _ => h.len_le hlen⟩
  · rw [h.notifyQueue]
    by_cases hid : c.message.notifyId ≠ 0 <;> simp [notices, copyMessage, hid]
  · rw [h.len_eq]
    simp only [copiedLen, List.map_cons, totalLen_cons]
    omega

theorem fillBlock_filled : ∀ (rounds : Nat) (l : BlockLoop),
    Ensures (fun l' => ∃ copied, Filled l l' copied) (fillBlock rounds l) := by
  intro rounds
  induction rounds with
  | zero => intro l; exact .error _
  | succ rounds ih =>
    intro l
    simp only [fillBlock]
    refine .ite (fun _ => .ok ⟨[], .refl l⟩) fun _ => ?_
    cases findReady l.sq.commandQueues l.sq.pendingQueues serialMaxClock none with
    | none => exact .error _
    | some c =>
      refine .ite (fun _ => .ok ⟨[], .refl l⟩) fun hlen => .mono (ih _) ?_
      rintro l' ⟨copied, h⟩
      exact ⟨c :: copied, h.cons (not_lt.mp hlen)⟩

/-- The loop ends, and the messages leave their queues in order. -/
theorem fillBlock_returns : ∀ (rounds : Nat) (l : BlockLoop), Counted l.sq →
    l.sq.readyCount < rounds →
    ∃ l' copied, fillBlock rounds l = .ok l' ∧ l'.copied = l.copied ++ copied ∧ Counted l'.sq ∧
      (∀ q, copiedFrom q copied ++ (l'.sq.commandQueues q).waiting =
        (l.sq.commandQueues q).waiting) ∧
      (l.sq.readyBytes ≠ 0 → l.len = messageHeaderSize → copied ≠ []) := by
  intro rounds
  induction rounds with
  | zero => intro l _ h; omega
  | succ rounds ih =>
    intro l h hcount
    simp only [fillBlock]
    split
    · rename_i hzero
      exact ⟨l, [], rfl, (List.append_nil _).symm, h, fun _ => rfl, fun hne => absurd hzero hne⟩
    · rename_i hne
      obtain ⟨c, rest, hfind, hmem, hfirst, hsend⟩ := h.findReady hne
      rw [hfind]
      simp only
      split
      · rename_i hlen
        refine ⟨l, [], rfl, (List.append_nil _).symm, h, fun _ => rfl, fun _ hhead => ?_⟩
        -- the first message always fits
        have hmax := hsend.2.1
        simp only [hhead, messageHeaderSize, messageMax, messageTrailerSize, messagePayloadMax,
          messageMin] at hlen hmax
        omega
      · have hdone := copyMessage_readyCount h hmem hfirst
        obtain ⟨l', copied, hrun, hcopied, hcounted, hwaiting, -⟩ := ih
          { sq := copyMessage c l.sq, len := l.len + c.message.len, copied := l.copied ++ [c] }
          (copyMessage_counted h hmem hfirst) (by simp only; omega)
        refine ⟨l', c :: copied, hrun, by rw [hcopied, List.append_assoc]; rfl, hcounted,
          fun q => ?_, fun _ _ => by simp⟩
        rw [← copyMessage_waiting hfirst q, ← hwaiting q, ← List.append_assoc,
          ← copiedFrom_append]
        rfl

/-- What `build_and_send_command` does to the link. -/
structure Sent (sq sq' : SerialQueue) (built : Built) : Prop where
  receiveWindow : sq'.receiveWindow = sq.receiveWindow
  sendSeq : sq'.sendSeq = sq.sendSeq + 1
  receiveSeq : sq'.receiveSeq = sq.receiveSeq
  lastAckSeq : sq'.lastAckSeq = sq.lastAckSeq
  sentQueue : sq'.sentQueue = sq.sentQueue ++ [built.block]
  needAckBytes : sq'.needAckBytes = sq.needAckBytes + built.block.len
  lastAckBytes : sq'.lastAckBytes = sq.lastAckBytes
  receiveQueue : sq'.receiveQueue = sq.receiveQueue
  notifyQueue : sq'.notifyQueue = sq.notifyQueue ++ notices sq.sendSeq built.copied
  seq : built.block.seq = sq.sendSeq % 16
  payload : built.block.payload = built.copied.flatMap (·.message.msg)
  len_le : built.block.len ≤ messageMax

theorem length_flatMap_msg (copied : List Copied) :
    ((copied.flatMap (·.message.msg)).length : Int) = copiedLen copied := by
  induction copied with
  | nil => rfl
  | cons c copied ih =>
    rw [List.flatMap_cons, List.length_append, Nat.cast_add, ih]
    rfl

theorem buildAndSendCommand_sent (sq : SerialQueue) :
    Ensures (fun r => Sent sq r.1 r.2) (buildAndSendCommand sq) := by
  refine .map (fillBlock_filled _ _) ?_
  rintro l ⟨copied, h⟩
  obtain ⟨hcopied, hlink, hnotify, hlen, hle⟩ := h
  simp only [List.nil_append] at hcopied
  subst hcopied
  have hbytes : Block.len { seq := l.sq.sendSeq % 16, payload := l.copied.flatMap (·.message.msg) } =
      l.len + messageTrailerSize := by
    simp only [Block.len, length_flatMap_msg, hlen]
  have hmax := hle (by simp only; decide)
  exact
    { receiveWindow := hlink.receiveWindow
      sendSeq := by simp only [hlink.sendSeq]
      receiveSeq := hlink.receiveSeq
      lastAckSeq := hlink.lastAckSeq
      sentQueue := by simp only [hlink.sentQueue]
      needAckBytes := by simp only [hbytes, hlink.needAckBytes]
      lastAckBytes := hlink.lastAckBytes
      receiveQueue := hlink.receiveQueue
      notifyQueue := hnotify
      seq := by simp only [hlink.sendSeq]
      payload := rfl
      len_le := by
        rw [hbytes]
        omega }

/-- `build_and_send_command` returns; it takes messages off their queues in order,
and at least one when one is ready. -/
theorem buildAndSendCommand_returns {sq : SerialQueue} (h : Counted sq) :
    ∃ sq' built, buildAndSendCommand sq = .ok (sq', built) ∧ Counted sq' ∧
      (∀ q, copiedFrom q built.copied ++ (sq'.commandQueues q).waiting =
        (sq.commandQueues q).waiting) ∧
      (sq.readyBytes ≠ 0 → built.copied ≠ []) := by
  obtain ⟨l, copied, hrun, hcopied, hcounted, hwaiting, hne⟩ :=
    fillBlock_returns (sq.readyCount + 1) { sq := sq, len := messageHeaderSize, copied := [] } h
      (Nat.lt_succ_self _)
  simp only [List.nil_append] at hcopied
  subst hcopied
  have hsent := buildAndSendCommand_sent sq
  unfold buildAndSendCommand at hsent ⊢
  rw [hrun] at hsent ⊢
  have hneed := (hsent _ rfl).needAckBytes
  have hqueue := (hsent _ rfl).sentQueue
  refine ⟨_, _, rfl, ⟨hcounted.nodup, hcounted.linked, hcounted.ready, hcounted.stalled, ?_,
    hcounted.sendable⟩, hwaiting, fun hready => hne hready rfl⟩
  rw [hneed, hqueue, h.needAck, List.map_append, List.sum_append, List.map_singleton,
    List.sum_singleton]

/-! ## Queuing and receiving -/

theorem setMinClock_sendable {qm : QueueMessage} (h : qm.Sendable) : (setMinClock qm).Sendable := by
  unfold setMinClock
  split <;> exact h

theorem sendable_map_setMinClock {msgs : List QueueMessage} (h : ∀ qm ∈ msgs, qm.Sendable) :
    ∀ qm ∈ msgs.map setMinClock, qm.Sendable := by
  intro qm hqm
  obtain ⟨m, hm, rfl⟩ := List.mem_map.mp hqm
  exact setMinClock_sendable (h m hm)

theorem serialqueueSendBatch_waiting {sq : SerialQueue} {q : Nat} {msgs : List QueueMessage}
    (h : ∀ qm ∈ msgs, qm.Sendable) (q' : Nat) :
    ((serialqueueSendBatch q msgs sq).commandQueues q').waiting =
      (sq.commandQueues q').waiting ++ if q' = q then msgs.map setMinClock else [] := by
  unfold serialqueueSendBatch
  simp only
  split
  · rename_i hzero
    rw [eq_nil_of_totalLen (sendable_map_setMinClock h) hzero]
    simp
  · split
    · rename_i hnil
      rw [hnil]
      simp
    · rename_i qm rest hcons
      by_cases hq : q' = q
      · subst hq
        simp [CommandQueue.waiting, hcons]
      · simp [hq]

theorem serialqueueSendBatch_counted {sq : SerialQueue} {q : Nat} {msgs : List QueueMessage}
    (hc : Counted sq) (h : ∀ qm ∈ msgs, qm.Sendable) :
    Counted (serialqueueSendBatch q msgs sq) := by
  have hsend : ∀ q', ∀ qm ∈ ((serialqueueSendBatch q msgs sq).commandQueues q').waiting,
      qm.Sendable := by
    intro q' qm hqm
    rw [serialqueueSendBatch_waiting h q'] at hqm
    rcases List.mem_append.mp hqm with hold | hnew
    · exact hc.sendable q' qm hold
    · split at hnew
      · exact sendable_map_setMinClock h qm hnew
      · cases hnew
  revert hsend
  unfold serialqueueSendBatch
  simp only
  split
  · exact fun _ => hc
  · split
    · exact fun _ => hc
    · rename_i qm rest hcons
      intro hsend
      rw [hcons]
      rw [hcons] at hsend
      by_cases hempty : (sq.commandQueues q).readyQueue = [] ∧ (sq.commandQueues q).stalledQueue = []
      · -- the queue was empty, and is linked now
        have hout : q ∉ sq.pendingQueues := fun hmem =>
          (hc.linked q).mp hmem (by simp [CommandQueue.waiting, hempty])
        have hother := fun (g : CommandQueue → Int) =>
          tally_update_of_not_mem (f := sq.commandQueues)
            (b := { stalledQueue := qm :: rest, readyQueue := [] }) (g := g) hout
        refine ⟨?_, fun q' => ?_, ?_, ?_, hc.needAck, hsend⟩
        · simp only [hempty, and_self, if_true]
          exact List.nodup_append.mpr ⟨hc.nodup, List.nodup_singleton q, fun a ha b hb heq => by
            rw [List.mem_singleton] at hb
            exact hout (hb ▸ heq ▸ ha)⟩
        · simp only [hempty, and_self, if_true]
          by_cases hq : q' = q
          · subst hq
            simp [CommandQueue.waiting]
          · rw [Function.update_of_ne hq, ← hc.linked q']
            simp [hq]
        · simp only [hempty, and_self, if_true, List.nil_append]
          rw [tally_snoc, hother, Function.update_self, hc.ready]
          simp
        · simp only [hempty, and_self, if_true, List.nil_append]
          rw [tally_snoc, hother, Function.update_self, hc.stalled]
      · have hin : q ∈ sq.pendingQueues := (hc.linked q).mpr fun hnil => by
          rw [CommandQueue.waiting, List.append_eq_nil_iff] at hnil
          exact hempty hnil
        have hready := tally_update (f := sq.commandQueues) (b := { sq.commandQueues q with
            stalledQueue := (sq.commandQueues q).stalledQueue ++ qm :: rest })
          (g := fun cq => totalLen cq.readyQueue) hc.nodup hin
        have hstalled := tally_update (f := sq.commandQueues) (b := { sq.commandQueues q with
            stalledQueue := (sq.commandQueues q).stalledQueue ++ qm :: rest })
          (g := fun cq => totalLen cq.stalledQueue) hc.nodup hin
        have hold := hc.ready
        have hold' := hc.stalled
        simp only [totalLen_append] at hready hstalled
        refine ⟨?_, fun q' => ?_, ?_, ?_, hc.needAck, hsend⟩
        · simp only [hempty, if_false]
          exact hc.nodup
        · simp only [hempty, if_false]
          by_cases hq : q' = q
          · subst hq
            simp [CommandQueue.waiting, hin]
          · rw [Function.update_of_ne hq]
            exact hc.linked q'
        · simp only [hempty, if_false]
          omega
        · simp only [hempty, if_false]
          omega

theorem removeSent_needAck (rseq : Int) : ∀ (sent : List Block) (sentSeq : Int) (sq : SerialQueue),
    sq.needAckBytes = (sent.map Block.len).sum →
      (removeSent rseq sentSeq sent sq).needAckBytes =
        ((removeSent rseq sentSeq sent sq).sentQueue.map Block.len).sum := by
  intro sent
  induction sent with
  | nil => intro sentSeq sq h; exact h
  | cons b rest ih =>
    intro sentSeq sq h
    simp only [List.map_cons, List.sum_cons] at h
    simp only [removeSent]
    split
    · simp only
      omega
    · exact ih _ _ (by simp only; omega)

theorem removeSent_queues (rseq : Int) : ∀ (sent : List Block) (sentSeq : Int) (sq : SerialQueue),
    let sq' := removeSent rseq sentSeq sent sq
    sq'.commandQueues = sq.commandQueues ∧ sq'.pendingQueues = sq.pendingQueues ∧
      sq'.readyBytes = sq.readyBytes ∧ sq'.stalledBytes = sq.stalledBytes := by
  intro sent
  induction sent with
  | nil => intro sentSeq sq; exact ⟨rfl, rfl, rfl, rfl⟩
  | cons b rest ih =>
    intro sentSeq sq
    simp only [removeSent]
    split
    · exact ⟨rfl, rfl, rfl, rfl⟩
    · exact ih _ _

theorem updateReceiveSeq_counted {sq : SerialQueue} (rseq : Int) (h : Counted sq) :
    Counted (updateReceiveSeq rseq sq) ∧
      (updateReceiveSeq rseq sq).commandQueues = sq.commandQueues := by
  obtain ⟨hqueues, hpending, hready, hstalled⟩ := removeSent_queues rseq sq.sentQueue
    sq.receiveSeq sq
  refine ⟨⟨?_, ?_, ?_, ?_, ?_, ?_⟩, hqueues⟩
  · simp only [updateReceiveSeq, hpending]
    exact h.nodup
  · simp only [updateReceiveSeq, hpending, hqueues]
    exact h.linked
  · simp only [updateReceiveSeq, hpending, hqueues, hready]
    exact h.ready
  · simp only [updateReceiveSeq, hpending, hqueues, hstalled]
    exact h.stalled
  · exact removeSent_needAck rseq sq.sentQueue sq.receiveSeq sq h.needAck
  · simp only [updateReceiveSeq, hqueues]
    exact h.sendable

/-- What a message does apart from the sequence numbers: notifications that are due
and data are received, and an ack is noted. -/
theorem processMessage_eq (rseq : Int) (m : Response) (sq : SerialQueue) :
    ∃ timer, processMessage rseq m sq =
      { checkNotify (u64 (rseq - 1 - if m.len > messageMin then 1 else 0)) sq with
        lastAckSeq := if m.len = messageMin then max sq.lastAckSeq rseq else sq.lastAckSeq
        receiveQueue :=
          (checkNotify (u64 (rseq - 1 - if m.len > messageMin then 1 else 0)) sq).receiveQueue ++
            if m.len = messageMin then [] else [.data m]
        retransmitTimer := timer } := by
  have hlast : sq.lastAckSeq =
      (checkNotify (u64 (rseq - 1 - if m.len > messageMin then 1 else 0)) sq).lastAckSeq := rfl
  unfold processMessage
  simp only
  rw [hlast]
  generalize checkNotify (u64 (rseq - 1 - if m.len > messageMin then 1 else 0)) sq = sq'
  by_cases hlen : m.len = messageMin
  · simp only [hlen, if_true, List.append_nil]
    by_cases hnew : sq'.lastAckSeq < rseq
    · rw [if_pos hnew, max_eq_right (le_of_lt hnew)]
      exact ⟨_, rfl⟩
    · rw [if_neg hnew, max_eq_left (not_lt.mp hnew)]
      split
      · exact ⟨.now, rfl⟩
      · exact ⟨_, rfl⟩
  · simp only [hlen, if_false]
    exact ⟨_, rfl⟩

theorem processMessage_counted {sq : SerialQueue} (rseq : Int) (m : Response) (h : Counted sq) :
    Counted (processMessage rseq m sq) ∧
      (processMessage rseq m sq).commandQueues = sq.commandQueues := by
  obtain ⟨timer, heq⟩ := processMessage_eq rseq m sq
  rw [heq]
  exact ⟨⟨h.nodup, h.linked, h.ready, h.stalled, h.needAck, h.sendable⟩, rfl⟩

theorem handleMessage_counted {sq : SerialQueue} (m : Response) (h : Counted sq) :
    Counted (handleMessage m sq) ∧ (handleMessage m sq).commandQueues = sq.commandQueues := by
  unfold handleMessage
  simp only
  by_cases hsame : sq.receiveSeq / 16 * 16 + m.seq % 16 = sq.receiveSeq
  · rw [if_pos hsame]
    exact processMessage_counted _ m h
  · rw [if_neg hsame]
    generalize (if sq.receiveSeq / 16 * 16 + m.seq % 16 < sq.receiveSeq then
      sq.receiveSeq / 16 * 16 + m.seq % 16 + 16 else sq.receiveSeq / 16 * 16 + m.seq % 16) = rseq
    split
    · exact ⟨h, rfl⟩
    · obtain ⟨hcounted, hqueues⟩ := updateReceiveSeq_counted rseq h
      obtain ⟨hcounted', hqueues'⟩ := processMessage_counted rseq m hcounted
      exact ⟨hcounted', hqueues'.trans hqueues⟩

/-! ## Runs -/

/-- The events of a run. -/
inductive QueueOp
  | sendBatch (queue : Nat) (msgs : List QueueMessage)
  | checkSend (r : ClockReading)
  | buildAndSend
  | receive (m : Response)
  | retransmit
  | pull
  | setReceiveWindow (receiveWindow : Int)
  deriving DecidableEq, Repr

/-- A serialqueue with all messages queued, for each command queue, and all blocks. -/
structure QueueWorld where
  sq : SerialQueue
  queued : Nat → List QueueMessage
  built : List Built

namespace QueueWorld

/-- A new serialqueue. -/
def init (debugFile : Bool) : QueueWorld where
  sq := serialqueueAlloc debugFile
  queued := fun _ => []
  built := []

/-- One event.  A message is queued as `serialqueue_send_batch` leaves it. -/
def next (w : QueueWorld) : QueueOp → Except SerialFault QueueWorld
  | .sendBatch q msgs =>
      .ok { w with
        sq := serialqueueSendBatch q msgs w.sq
        queued := Function.update w.queued q (w.queued q ++ msgs.map setMinClock) }
  | .checkSend r => .ok { w with sq := (checkSendCommand r w.sq).1 }
  | .buildAndSend => (buildAndSendCommand w.sq).map fun (sq, built) =>
      { w with sq := sq, built := w.built ++ [built] }
  | .receive m => .ok { w with sq := handleMessage m w.sq }
  | .retransmit => .ok { w with sq := (retransmitEvent w.sq).1 }
  | .pull => .ok { w with sq := (serialqueuePull w.sq).elim w.sq Prod.snd }
  | .setReceiveWindow receiveWindow =>
      .ok { w with sq := { w.sq with receiveWindow := receiveWindow } }

/-- Messages have 1 to 59 bytes and a priority. -/
def allowed : QueueOp → Prop
  | .sendBatch _ msgs => ∀ qm ∈ msgs, qm.Sendable
  | _ => True

instance : (op : QueueOp) → Decidable (allowed op)
  | .sendBatch _ msgs => inferInstanceAs (Decidable (∀ qm ∈ msgs, qm.Sendable))
  | .checkSend _ | .buildAndSend | .receive _ | .retransmit | .pull | .setReceiveWindow _ =>
      inferInstanceAs (Decidable True)

/-- The messages of a command queue that are in blocks, in their order. -/
def sent (w : QueueWorld) (q : Nat) : List QueueMessage :=
  copiedFrom q (w.built.flatMap Built.copied)

/-- One event that is allowed. -/
def next? (w : QueueWorld) (op : QueueOp) : Option QueueWorld :=
  if allowed op then (w.next op).toOption else none

end QueueWorld

/-- Runs of the events. -/
def QueueRun : QueueWorld → List QueueOp → QueueWorld → Prop :=
  Run fun w op w' => QueueWorld.allowed op ∧ w.next op = .ok w'

/-- The discipline of the queues. -/
structure Disciplined (w : QueueWorld) : Prop where
  counted : Counted w.sq
  order : ∀ q, w.sent q ++ (w.sq.commandQueues q).waiting = w.queued q
  block : ∀ b ∈ w.built, b.block.payload = b.copied.flatMap (·.message.msg) ∧
    b.block.len ≤ messageMax

theorem Disciplined.init (debugFile : Bool) : Disciplined (.init debugFile) where
  counted :=
    { nodup := List.nodup_nil
      linked := by intro q; simp [QueueWorld.init, serialqueueAlloc, CommandQueue.waiting]
      ready := rfl
      stalled := rfl
      needAck := rfl
      sendable := by intro q qm hqm; cases hqm }
  order := fun _ => rfl
  block := fun b hb => by cases hb

/-- Every event keeps the discipline, and returns. -/
theorem Disciplined.next {w : QueueWorld} {op : QueueOp} (h : Disciplined w)
    (hallowed : QueueWorld.allowed op) : ∃ w', w.next op = .ok w' ∧ Disciplined w' := by
  have hcounted := h.counted
  cases op with
  | sendBatch q msgs =>
    refine ⟨_, rfl, serialqueueSendBatch_counted hcounted hallowed, fun q' => ?_, h.block⟩
    simp only [serialqueueSendBatch_waiting hallowed]
    by_cases hq : q' = q
    · subst hq
      rw [Function.update_self, ← h.order q', List.append_assoc, if_pos rfl]
      rfl
    · rw [Function.update_of_ne hq, ← h.order q', if_neg hq, List.append_nil]
      rfl
  | checkSend r =>
    have hreadied := checkSendCommand_readied r w.sq
    refine ⟨_, rfl, hreadied.counted hcounted, fun q => ?_, h.block⟩
    rw [← h.order q]
    simp only [hreadied.waiting]
    rfl
  | buildAndSend =>
    obtain ⟨sq', built, heq, hcounted', hwaiting, -⟩ := buildAndSendCommand_returns hcounted
    have hsent := buildAndSendCommand_sent w.sq _ heq
    refine ⟨{ w with sq := sq', built := w.built ++ [built] }, ?_, hcounted', fun q => ?_, ?_⟩
    · simp only [QueueWorld.next, heq, Except.map]
    · rw [← h.order q, ← hwaiting q, ← List.append_assoc]
      simp only [QueueWorld.sent, List.flatMap_append, List.flatMap_singleton, copiedFrom_append]
    · intro b hb
      rcases List.mem_append.mp hb with hb | hb
      · exact h.block b hb
      · rw [List.mem_singleton] at hb
        subst hb
        exact ⟨hsent.payload, hsent.len_le⟩
  | receive m =>
    obtain ⟨hcounted', hqueues⟩ := handleMessage_counted m hcounted
    refine ⟨_, rfl, hcounted', fun q => ?_, h.block⟩
    rw [← h.order q]
    simp only [hqueues]
    rfl
  | retransmit =>
    exact ⟨_, rfl, ⟨hcounted.nodup, hcounted.linked, hcounted.ready, hcounted.stalled,
      hcounted.needAck, hcounted.sendable⟩, h.order, h.block⟩
  | pull =>
    refine ⟨_, rfl, ?_⟩
    unfold serialqueuePull
    split
    · exact h
    · exact ⟨⟨hcounted.nodup, hcounted.linked, hcounted.ready, hcounted.stalled,
        hcounted.needAck, hcounted.sendable⟩, h.order, h.block⟩
  | setReceiveWindow receiveWindow =>
    exact ⟨_, rfl, ⟨hcounted.nodup, hcounted.linked, hcounted.ready, hcounted.stalled,
      hcounted.needAck, hcounted.sendable⟩, h.order, h.block⟩

theorem QueueRun.disciplined {debugFile : Bool} {ops : List QueueOp} {w : QueueWorld}
    (hrun : QueueRun (.init debugFile) ops w) : Disciplined w := by
  refine hrun.invariant (.init debugFile) ?_
  rintro w op w' h ⟨hallowed, hnext⟩
  obtain ⟨w'', heq, h'⟩ := h.next hallowed
  rw [heq, Except.ok.injEq] at hnext
  exact hnext ▸ h'

theorem QueueRun.of_any (w : QueueWorld) (ops : List QueueOp) (P : QueueWorld → Bool)
    (h : (ops.foldlM QueueWorld.next? w).any P = true) :
    ∃ w', QueueRun w ops w' ∧ P w' = true := by
  obtain ⟨w', hrun, hP⟩ := Run.exists_of_any h
  refine ⟨w', ?_, hP⟩
  have hiff : ∀ (w : QueueWorld) (op : QueueOp) (w' : QueueWorld),
      w.next? op = some w' ↔ QueueWorld.allowed op ∧ w.next op = .ok w' := by
    intro w op w'
    unfold QueueWorld.next?
    by_cases hallowed : QueueWorld.allowed op
    · simp [hallowed, toOption_eq_some]
    · simp [hallowed]
  simp only [hiff] at hrun
  exact hrun

/-- The command queues are disciplined.  Every message queued is in one place of the
blocks, in the order of its queue, or is still waiting; no block is too long and
each holds the messages copied into it; a command queue is linked when it has a
message; the counters are the sums of the lengths; and a block can be built,
which has a message when one is ready. -/
theorem commandQueues_disciplined {debugFile : Bool} {ops : List QueueOp} {w : QueueWorld}
    (hrun : QueueRun (.init debugFile) ops w) :
    (∀ q, w.sent q ++ (w.sq.commandQueues q).readyQueue ++ (w.sq.commandQueues q).stalledQueue =
      w.queued q) ∧
    (∀ b ∈ w.built, b.block.payload = b.copied.flatMap (·.message.msg) ∧
      b.block.len ≤ messageMax) ∧
    w.sq.pendingQueues.Nodup ∧
    (∀ q, q ∈ w.sq.pendingQueues ↔
      (w.sq.commandQueues q).readyQueue ≠ [] ∨ (w.sq.commandQueues q).stalledQueue ≠ []) ∧
    (w.sq.readyBytes = tally w.sq.pendingQueues w.sq.commandQueues fun cq =>
        totalLen cq.readyQueue) ∧
    (w.sq.stalledBytes = tally w.sq.pendingQueues w.sq.commandQueues fun cq =>
        totalLen cq.stalledQueue) ∧
    w.sq.needAckBytes = (w.sq.sentQueue.map Block.len).sum ∧
    ∃ sq built, buildAndSendCommand w.sq = .ok (sq, built) ∧
      (w.sq.readyBytes ≠ 0 → built.copied ≠ []) := by
  have h := hrun.disciplined
  obtain ⟨sq, built, heq, -, -, hne⟩ := buildAndSendCommand_returns h.counted
  refine ⟨fun q => ?_, h.block, h.counted.nodup, fun q => ?_, h.counted.ready, h.counted.stalled,
    h.counted.needAck, sq, built, heq, hne⟩
  · rw [List.append_assoc]
    exact h.order q
  · rw [h.counted.linked q, CommandQueue.waiting, ne_eq, List.append_eq_nil_iff, not_and_or]

/-- Two command queues, of which one has a message that must wait. -/
theorem commandQueues_disciplined_waiting :
    ∃ w, QueueRun (.init false)
        [.sendBatch 0 [⟨[1, 2], 0, 50, 0⟩, ⟨[3], 9000, 9100, 0⟩], .sendBatch 1 [⟨[4], 0, 20, 7⟩],
          .checkSend ⟨100, 0, 1000, true⟩, .buildAndSend] w ∧
      w.built.map (·.block.payload) = [[4, 1, 2]] ∧ w.sq.stalledBytes = 1 ∧
      w.sent 0 ++ (w.sq.commandQueues 0).readyQueue ++ (w.sq.commandQueues 0).stalledQueue =
        w.queued 0 := by
  obtain ⟨w, hrun, hw⟩ := QueueRun.of_any (.init false)
    [.sendBatch 0 [⟨[1, 2], 0, 50, 0⟩, ⟨[3], 9000, 9100, 0⟩], .sendBatch 1 [⟨[4], 0, 20, 7⟩],
      .checkSend ⟨100, 0, 1000, true⟩, .buildAndSend]
    (fun w => decide (w.built.map (·.block.payload) = [[4, 1, 2]] ∧ w.sq.stalledBytes = 1))
    (by decide +kernel)
  obtain ⟨hpayload, hstalled⟩ := of_decide_eq_true hw
  exact ⟨w, hrun, hpayload, hstalled, (commandQueues_disciplined hrun).1 0⟩

end FlsunT1.Chelper
