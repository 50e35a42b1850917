/-
  Link/Delivery.lean --- blocks are delivered once and in order.

  A world is seen as the sliding window of its sequence numbers.  The bounds of
  the window make the four bits that are sent as good as the whole number, on both
  sides; so the mcu dispatches the block it waits for and no other.
-/
import FlsunT1.Link.World

set_option autoImplicit false

namespace FlsunT1.Link

open FlsunT1.Library FlsunT1.Chelper FlsunT1.Mcu

/-! ## What an event can do -/

namespace World

variable {start : Int} {w w' : World}

/-- The mcu takes the block it waits for; anything else leaves its input, at times with
a nak. -/
theorem findBlock_cases (hstep : w.findBlock start = some w') :
    w.mcu.phase = .idle ∧ ∃ m rest, w.toMcu = m :: rest ∧
      ((∃ block command, m.message = some block ∧ block.seq = w.mcu.command.nextSequence ∧
          command.nextSequence = (block.seq + 1) % 16 ∧
          w' = { w with
            mcu := { command := command, phase := .dispatching }
            dispatched := w.dispatched ++ [block] }) ∨
        ∃ command : CommandState, command.nextSequence = w.mcu.command.nextSequence ∧
          (w' = { w with mcu := { w.mcu with command := command }, toMcu := rest } ∨
            w' = emit start [] { w with mcu := { w.mcu with command := command }
                                        toMcu := rest })) := by
  unfold findBlock at hstep
  split at hstep
  · rename_i m rest hphase hfront
    refine ⟨hphase, m, rest, hfront, ?_⟩
    cases hm : m.message with
    | none =>
      right
      by_cases hvalid : w.mcu.command.needValid = true
      · simp only [commandFindBlock, hm, Option.map_none, hvalid, if_true,
          Option.some.injEq] at hstep
        exact ⟨w.mcu.command, rfl, .inl hstep.symm⟩
      · simp only [commandFindBlock, hm, Option.map_none, hvalid] at hstep
        exact ⟨{ w.mcu.command with needValid := true }, rfl, .inr (Option.some.inj hstep).symm⟩
    | some block =>
      by_cases hseq : block.seq = w.mcu.command.nextSequence
      · simp only [commandFindBlock, hm, Option.map_some, ne_eq, hseq, not_true_eq_false,
          if_false] at hstep
        exact .inl ⟨block, _, rfl, hseq, by rw [hseq], (Option.some.inj hstep).symm⟩
      · simp only [commandFindBlock, hm, Option.map_some, ne_eq, hseq, not_false_eq_true,
          if_true] at hstep
        exact .inr ⟨{ w.mcu.command with needValid := false }, rfl,
          .inr (Option.some.inj hstep).symm⟩
  · cases hstep

/-- A round of `command_event` makes messages ready, and may build a block. -/
theorem command_cases {r : ClockReading} (hstep : w.command r = some w') :
    ∃ sq, (checkSendCommand r w.host).1 = sq ∧ (w' = { w with host := sq } ∨
      ∃ host built, w.host.mustWait = false ∧ buildAndSendCommand sq = .ok (host, built) ∧
        w' = { w with
          host := host
          toMcu := w.toMcu ++ [{ number := w.host.sendSeq, message := some built.block }]
          built := w.built ++ [built] }) := by
  refine ⟨_, rfl, ?_⟩
  unfold command commandEvent at hstep
  by_cases hwait : w.host.mustWait = true
  · simp only [checkSendCommand, hwait, if_true, reduceCtorEq, if_false] at hstep
    refine .inl ?_
    simp only [checkSendCommand, hwait, if_true]
    exact (Option.some.inj hstep).symm
  · simp only at hstep
    by_cases hnow : (checkSendCommand r w.host).2 = .now
    · rw [if_pos hnow] at hstep
      cases hbuild : buildAndSendCommand (checkSendCommand r w.host).1 with
      | error e =>
        rw [hbuild] at hstep
        cases hstep
      | ok res =>
        rw [hbuild] at hstep
        exact .inr ⟨res.1, res.2, Bool.not_eq_true _ ▸ hwait, rfl, (Option.some.inj hstep).symm⟩
    · rw [if_neg hnow] at hstep
      exact .inl (Option.some.inj hstep).symm

end World

/-! ## The host -/

theorem sendBatch_link (q : Nat) (msgs : List QueueMessage) (sq : SerialQueue) :
    SameLink sq (serialqueueSendBatch q msgs sq) := by
  unfold serialqueueSendBatch
  simp only
  split
  · exact .refl _
  · split
    · exact .refl _
    · exact ⟨rfl, rfl, rfl, rfl, rfl, rfl, rfl, rfl⟩

/-- Acknowledged blocks leave the sent queue from its front. -/
theorem removeSent_eq (rseq : Int) : ∀ (sent : List Block) (sentSeq : Int) (sq : SerialQueue)
    (k : Nat), rseq = sentSeq + (k + 1) → k < sent.length →
      removeSent rseq sentSeq sent sq =
        { sq with
          needAckBytes := sq.needAckBytes - ((sent.take (k + 1)).map Block.len).sum
          sentQueue := sent.drop (k + 1)
          lastAckBytes := ((sent[k]?).map Block.len).getD 0 } := by
  intro sent
  induction sent with
  | nil => intro sentSeq sq k _ hk; simp at hk
  | cons b rest ih =>
    intro sentSeq sq k hrseq hk
    simp only [removeSent]
    cases k with
    | zero =>
      rw [if_pos (by simpa using hrseq)]
      simp
    | succ k =>
      rw [if_neg (by omega), ih _ _ k (by omega) (by simpa using hk)]
      simp only [List.take_succ_cons, List.map_cons, List.sum_cons, List.drop_succ_cons,
        List.getElem?_cons_succ]
      congr 1
      omega

theorem handleMessage_eq {sq : SerialQueue} {m : Response} {a : Int}
    (hlow : sq.receiveSeq ≤ a) (hhigh : a ≤ sq.sendSeq) (hwidth : a ≤ sq.receiveSeq + 12)
    (hseq : m.seq = a % 16) :
    handleMessage m sq =
      processMessage a m (if a = sq.receiveSeq then sq else updateReceiveSeq a sq) := by
  unfold handleMessage
  simp only [hseq]
  by_cases hsame : a = sq.receiveSeq
  · rw [if_pos (by omega), if_pos hsame]
    congr 1
    omega
  · have hrseq : (if sq.receiveSeq / 16 * 16 + a % 16 % 16 < sq.receiveSeq then
        sq.receiveSeq / 16 * 16 + a % 16 % 16 + 16
      else sq.receiveSeq / 16 * 16 + a % 16 % 16) = a := by
      split <;> omega
    rw [if_neg (by omega), hrseq, if_neg (by omega), if_neg hsame]

/-- What the host does with an ack in the window. -/
structure Acked (sq sq' : SerialQueue) (a : Int) : Prop where
  receiveWindow : sq'.receiveWindow = sq.receiveWindow
  sendSeq : sq'.sendSeq = sq.sendSeq
  receiveSeq : sq'.receiveSeq = a
  sentQueue : sq'.sentQueue = sq.sentQueue.drop (a - sq.receiveSeq).toNat
  needAckBytes : sq'.needAckBytes = sq.needAckBytes -
    ((sq.sentQueue.take (a - sq.receiveSeq).toNat).map Block.len).sum
  lastAckBytes : sq.receiveSeq < a →
    sq'.lastAckBytes = ((sq.sentQueue[(a - sq.receiveSeq).toNat - 1]?).map Block.len).getD 0
  lastAckBytes_same : a = sq.receiveSeq → sq'.lastAckBytes = sq.lastAckBytes
  notifyQueue : sq'.notifyQueue = sq.notifyQueue
  receiveQueue : sq'.receiveQueue = sq.receiveQueue
  lastAckSeq : sq'.lastAckSeq = sq.lastAckSeq

theorem updateReceiveSeq_acked {sq : SerialQueue} {a : Int} (hlow : sq.receiveSeq ≤ a)
    (hlen : a ≤ sq.receiveSeq + sq.sentQueue.length) :
    Acked sq (if a = sq.receiveSeq then sq else updateReceiveSeq a sq) a := by
  by_cases hsame : a = sq.receiveSeq
  · rw [if_pos hsame]
    have hzero : (a - sq.receiveSeq).toNat = 0 := by omega
    refine ⟨rfl, rfl, hsame.symm, ?_, ?_, fun hlt => by omega, fun _ => rfl, rfl, rfl, rfl⟩
    · rw [hzero, List.drop_zero]
    · rw [hzero, List.take_zero, List.map_nil, List.sum_nil, sub_zero]
  · rw [if_neg hsame]
    obtain ⟨k, hk⟩ : ∃ k : Nat, (a - sq.receiveSeq).toNat = k + 1 :=
      ⟨(a - sq.receiveSeq).toNat - 1, by omega⟩
    have heq := removeSent_eq a sq.sentQueue sq.receiveSeq sq k (by omega) (by omega)
    refine ⟨?_, ?_, rfl, ?_, ?_, fun _ => ?_, fun h => absurd h hsame, ?_, ?_, ?_⟩ <;>
      simp only [updateReceiveSeq, heq, hk, Nat.add_sub_cancel]

/-! ## The window of a world -/

/-- The numbers of the blocks in flight. -/
def frames (l : List (Numbered (Option Block))) : List Int :=
  l.filterMap fun m => m.message.map fun _ => m.number

namespace World

/-- The blocks that the mcu has not looked at. -/
def inFlight (w : World) : List (Numbered (Option Block)) :=
  if w.mcu.phase.busy then w.toMcu.tail else w.toMcu

/-- The sliding window. -/
def window (start : Int) (w : World) : Window where
  base := w.host.receiveSeq
  next := w.next start
  send := w.host.sendSeq
  frames := frames w.inFlight
  acks := w.toHost.map Numbered.number

/-- All blocks built. -/
def blocks (w : World) : List Block := w.built.map Built.block

end World

/-- The invariant of runs. -/
structure Delivering (start : Int) (w : World) : Prop where
  bounded : Window.Bounded 12 (w.window start)
  base : 0 ≤ start ∧ start ≤ w.host.receiveSeq
  sendSeq : w.host.sendSeq = start + w.built.length
  sentQueue : w.host.sentQueue = w.blocks.drop (w.host.receiveSeq - start).toNat
  nextSequence : w.mcu.command.nextSequence = w.next start % 16
  dispatched : w.dispatched <+: w.blocks
  seq : ∀ (i : Nat) (b : Block), w.blocks[i]? = some b → b.seq = (start + i) % 16
  toMcu : ∀ m ∈ w.toMcu, ∀ b, m.message = some b → start ≤ m.number ∧
    w.blocks[(m.number - start).toNat]? = some b
  toHost : ∀ m ∈ w.toHost, m.message.seq = m.number % 16
  busy : w.mcu.phase.busy = true → w.toMcu ≠ []

theorem Delivering.init {w : World} (h : Synchronised w) : Delivering w.host.receiveSeq w where
  bounded := by
    have hwindow : w.window w.host.receiveSeq =
        { base := w.host.receiveSeq, next := w.host.receiveSeq, send := w.host.receiveSeq
          frames := [], acks := [] } := by
      simp [World.window, World.next, World.inFlight, h.dispatched, h.sendSeq, h.toMcu, h.toHost,
        frames]
    rw [hwindow]
    exact Window.Bounded.init (by decide) _
  base := ⟨h.nonneg, le_refl _⟩
  sendSeq := by simp [h.sendSeq, h.built]
  sentQueue := by simp [World.blocks, h.built, h.sentQueue]
  nextSequence := by simp [World.next, h.nextSequence, h.dispatched]
  dispatched := by simp [h.dispatched]
  seq := by
    intro i b hb
    simp [World.blocks, h.built] at hb
  toMcu := by simp [h.toMcu]
  toHost := by simp [h.toHost]
  busy := by simp [h.phase, ConsolePhase.busy]

namespace Delivering

variable {start : Int} {w w' : World}

theorem window_range (h : Delivering start w) :
    w.host.receiveSeq ≤ w.next start ∧ w.next start ≤ w.host.sendSeq ∧
      w.host.sendSeq ≤ w.host.receiveSeq + 12 :=
  ⟨h.bounded.base_le, h.bounded.next_le, h.bounded.send_le⟩

theorem setHost (h : Delivering start w) {host : SerialQueue} {pulled : List Received}
    (h1 : host.sendSeq = w.host.sendSeq) (h2 : host.receiveSeq = w.host.receiveSeq)
    (h3 : host.sentQueue = w.host.sentQueue) :
    Delivering start { w with host := host, pulled := pulled } where
  bounded := by
    have hwindow : World.window start { w with host := host, pulled := pulled } =
        w.window start := by
      simp only [World.window, h1, h2]
      rfl
    rw [hwindow]
    exact h.bounded
  base := by simp only [h2]; exact h.base
  sendSeq := by simp only [h1]; exact h.sendSeq
  sentQueue := by simp only [h2, h3]; exact h.sentQueue
  nextSequence := h.nextSequence
  dispatched := h.dispatched
  seq := h.seq
  toMcu := h.toMcu
  toHost := h.toHost
  busy := h.busy

/-- The mcu sends a message. -/
theorem emit (h : Delivering start w) (payload : List Nat) :
    Delivering start (w.emit start payload) where
  bounded := by
    have hwindow : (w.emit start payload).window start =
        { w.window start with acks := (w.window start).acks ++ [(w.window start).next] } := by
      simp only [World.window, World.emit, List.map_append, List.map_singleton]
      rfl
    rw [hwindow]
    exact h.bounded.step (by decide) .reply
  base := h.base
  sendSeq := h.sendSeq
  sentQueue := h.sentQueue
  nextSequence := h.nextSequence
  dispatched := h.dispatched
  seq := h.seq
  toMcu := h.toMcu
  toHost := by
    intro m hm
    rcases List.mem_append.mp hm with hm | hm
    · exact h.toHost m hm
    · rw [List.mem_singleton] at hm
      subst hm
      exact h.nextSequence
  busy := h.busy

/-! ## What the links lose -/

/-- Messages are lost on the links, and the mcu goes on with its console task. -/
theorem lose (h : Delivering start w) (hhost : w'.host = w.host) (hbuilt : w'.built = w.built)
    (hdispatched : w'.dispatched = w.dispatched)
    (hnext : w'.mcu.command.nextSequence = w.mcu.command.nextSequence)
    (hframes : (frames w'.inFlight).Sublist (frames w.inFlight))
    (htoMcu : ∀ m ∈ w'.toMcu, ∀ b, m.message = some b → m ∈ w.toMcu)
    (htoHost : w'.toHost.Sublist w.toHost) (hbusy : w'.mcu.phase.busy = true → w'.toMcu ≠ []) :
    Delivering start w' where
  bounded := by
    have hwindow : w'.window start =
        { w.window start with
          frames := frames w'.inFlight, acks := w'.toHost.map Numbered.number } := by
      simp only [World.window, World.next, hhost, hdispatched]
    rw [hwindow]
    exact h.bounded.step (by decide) (.lose hframes (htoHost.map _))
  base := by rw [hhost]; exact h.base
  sendSeq := by rw [hhost, hbuilt]; exact h.sendSeq
  sentQueue := by simp only [World.blocks, hhost, hbuilt]; exact h.sentQueue
  nextSequence := by simp only [World.next, hnext, hdispatched]; exact h.nextSequence
  dispatched := by simp only [World.blocks, hbuilt, hdispatched]; exact h.dispatched
  seq := by simp only [World.blocks, hbuilt]; exact h.seq
  toMcu := by
    intro m hm b hb
    simp only [World.blocks, hbuilt]
    exact h.toMcu m (htoMcu m hm b hb) b hb
  toHost := fun m hm => h.toHost m (htoHost.subset hm)
  busy := hbusy

theorem setPhase (h : Delivering start w) {phase : ConsolePhase}
    (hbusy : phase.busy = w.mcu.phase.busy) :
    Delivering start { w with mcu := { w.mcu with phase := phase } } := by
  refine h.lose rfl rfl rfl rfl ?_ (fun m hm _ _ => hm) (List.Sublist.refl _) fun hb => ?_
  · simp only [World.inFlight, hbusy]
    exact List.Sublist.refl _
  · exact h.busy (hbusy ▸ hb)

theorem pop (h : Delivering start w) (hbusy : w.mcu.phase.busy = true) {phase : ConsolePhase}
    (hidle : phase.busy = false) :
    Delivering start { w with mcu := { w.mcu with phase := phase }, toMcu := w.toMcu.tail } := by
  refine h.lose rfl rfl rfl rfl ?_ (fun m hm _ _ => List.mem_of_mem_tail hm)
    (List.Sublist.refl _) fun hb => ?_
  · simp only [World.inFlight, hbusy, hidle, if_true]
    exact List.Sublist.refl _
  · rw [hidle] at hb
    exact absurd hb Bool.false_ne_true

end Delivering

theorem frames_garble_sublist (l : List (Numbered (Option Block))) (i : Nat) :
    (frames (l.modify i fun m => { m with message := none })).Sublist (frames l) := by
  induction l generalizing i with
  | nil => rw [List.modify_nil]
  | cons m l ih =>
    cases i with
    | zero =>
      rw [List.modify_zero_cons]
      exact (List.sublist_cons_self m l).filterMap _
    | succ i =>
      rw [List.modify_succ_cons]
      unfold frames
      rw [List.filterMap_cons, List.filterMap_cons]
      split
      · exact ih i
      · exact (ih i).cons_cons _

theorem mem_of_mem_garble {l : List (Numbered (Option Block))} {i : Nat}
    {m : Numbered (Option Block)} {b : Block}
    (hm : m ∈ l.modify i fun m => { m with message := none }) (hb : m.message = some b) :
    m ∈ l := by
  obtain ⟨j, hj⟩ := List.mem_iff_getElem?.mp hm
  rw [List.getElem?_modify] at hj
  obtain ⟨m', hm', heq⟩ := Option.map_eq_some_iff.mp hj
  by_cases hij : i = j
  · rw [if_pos hij] at heq
    rw [← heq] at hb
    cases hb
  · rw [if_neg hij] at heq
    exact heq ▸ List.mem_of_getElem? hm'

namespace Delivering

variable {start : Int} {w w' : World}

theorem loseToMcu (h : Delivering start w) {i : Nat} (hlink : w.onLink i = true) :
    Delivering start { w with toMcu := w.toMcu.eraseIdx i } := by
  refine h.lose rfl rfl rfl rfl ?_ (fun m hm _ _ => List.mem_of_mem_eraseIdx hm)
    (List.Sublist.refl _) fun hb => ?_
  · simp only [World.inFlight]
    split
    · rename_i hb
      obtain ⟨j, rfl⟩ : ∃ j, i = j + 1 := by
        simp only [World.onLink, hb, Bool.not_true, Bool.false_or, bne_iff_ne] at hlink
        exact ⟨i - 1, by omega⟩
      cases w.toMcu with
      | nil => exact List.Sublist.refl _
      | cons m rest => exact (List.eraseIdx_sublist rest j).filterMap _
    · exact (List.eraseIdx_sublist _ _).filterMap _
  · simp only at hb
    simp only [World.onLink, hb, Bool.not_true, Bool.false_or, bne_iff_ne] at hlink
    obtain ⟨m, rest, hcons⟩ := List.exists_cons_of_ne_nil (h.busy hb)
    obtain ⟨j, rfl⟩ : ∃ j, i = j + 1 := ⟨i - 1, by omega⟩
    simp only [hcons, List.eraseIdx_cons_succ]
    exact List.cons_ne_nil _ _

theorem garble (h : Delivering start w) {i : Nat} (hlink : w.onLink i = true) :
    Delivering start
      { w with toMcu := w.toMcu.modify i fun m => { m with message := none } } := by
  refine h.lose rfl rfl rfl rfl ?_ (fun m hm b hb => mem_of_mem_garble hm hb)
    (List.Sublist.refl _) fun hb => ?_
  · simp only [World.inFlight]
    split
    · rename_i hb
      obtain ⟨j, rfl⟩ : ∃ j, i = j + 1 := by
        simp only [World.onLink, hb, Bool.not_true, Bool.false_or, bne_iff_ne] at hlink
        exact ⟨i - 1, by omega⟩
      cases w.toMcu with
      | nil => exact List.Sublist.refl _
      | cons m rest => exact frames_garble_sublist rest j
    · exact frames_garble_sublist _ _
  · intro hnil
    refine h.busy hb ?_
    have hlength := congrArg List.length hnil
    rw [List.length_modify] at hlength
    exact List.length_eq_zero_iff.mp hlength

theorem loseToHost (h : Delivering start w) (i : Nat) :
    Delivering start { w with toHost := w.toHost.eraseIdx i } :=
  h.lose rfl rfl rfl rfl (List.Sublist.refl _) (fun _ hm _ _ => hm)
    (List.eraseIdx_sublist _ _) h.busy

/-! ## What the mcu does -/

theorem refuse (h : Delivering start w) {m : Numbered (Option Block)}
    {rest : List (Numbered (Option Block))} (hphase : w.mcu.phase = .idle)
    (hfront : w.toMcu = m :: rest) {command : CommandState}
    (hnext : command.nextSequence = w.mcu.command.nextSequence) :
    Delivering start
      { w with mcu := { w.mcu with command := command }, toMcu := rest } := by
  refine h.lose rfl rfl rfl hnext ?_ (fun m' hm _ _ => ?_) (List.Sublist.refl _) fun hb => ?_
  · simp only [World.inFlight, hphase, ConsolePhase.busy, hfront]
    exact (List.sublist_cons_self m rest).filterMap _
  · rw [hfront]
    exact List.mem_cons_of_mem _ hm
  · simp only [hphase, ConsolePhase.busy] at hb
    exact absurd hb Bool.false_ne_true

/-- The mcu takes the block it waits for, which is the next one of those built. -/
theorem accept (h : Delivering start w) {m : Numbered (Option Block)}
    {rest : List (Numbered (Option Block))} (hphase : w.mcu.phase = .idle)
    (hfront : w.toMcu = m :: rest) {block : Block} (hm : m.message = some block)
    (hseq : block.seq = w.mcu.command.nextSequence) {command : CommandState}
    (hnext : command.nextSequence = (block.seq + 1) % 16) :
    Delivering start
      { w with
        mcu := { command := command, phase := .dispatching }
        dispatched := w.dispatched ++ [block] } := by
  obtain ⟨hlow, hblock⟩ := h.toMcu m (by rw [hfront]; exact List.mem_cons_self) block hm
  have hidle : w.inFlight = m :: rest := by
    simp only [World.inFlight, hphase, ConsolePhase.busy, hfront]
    rfl
  have hframes : (w.window start).frames = m.number :: frames rest := by
    simp only [World.window, hidle, frames, List.filterMap_cons, hm, Option.map_some]
  -- four bits of its number tell the block apart
  have hnumber : m.number = w.next start := by
    refine h.bounded.frame_eq (show (12 : Int) < 16 by decide) ?_ ?_
    · rw [hframes]
      exact List.mem_cons_self
    · have hbits := h.seq _ block hblock
      have hwait := h.nextSequence
      show m.number % 16 = w.next start % 16
      omega
  have hplace : w.blocks[w.dispatched.length]? = some block := by
    rw [← hblock]
    congr 1
    unfold World.next at hnumber
    omega
  have hstep : World.window start
      { w with
        mcu := { command := command, phase := .dispatching }
        dispatched := w.dispatched ++ [block] } =
      { w.window start with next := (w.window start).next + 1, frames := frames rest } := by
    simp only [World.window, World.next, World.inFlight, ConsolePhase.busy, hfront,
      List.length_append, List.length_singleton, if_true, List.tail_cons, Nat.cast_add,
      Nat.cast_one, add_assoc]
  exact
    { bounded := by
        rw [hstep]
        refine h.bounded.step (by decide) (.accept ?_)
        rw [hframes, hnumber]
        rfl
      base := h.base
      sendSeq := h.sendSeq
      sentQueue := h.sentQueue
      nextSequence := by
        simp only [World.next, List.length_append, List.length_singleton, hnext, hseq,
          h.nextSequence]
        push_cast
        omega
      dispatched := by
        obtain ⟨tail, htail⟩ := h.dispatched
        rw [← htail, List.getElem?_append_right (le_refl _), Nat.sub_self] at hplace
        obtain ⟨tail', rfl⟩ : ∃ tail', tail = block :: tail' := by
          cases tail with
          | nil => cases hplace
          | cons b tail' =>
            rw [List.getElem?_cons_zero, Option.some.injEq] at hplace
            exact ⟨tail', by rw [hplace]⟩
        refine ⟨tail', ?_⟩
        rw [List.append_assoc]
        exact htail
      seq := h.seq
      toMcu := h.toMcu
      toHost := h.toHost
      busy := fun _ => by
        simp only [hfront]
        exact List.cons_ne_nil _ _ }

theorem findBlock (h : Delivering start w) (hstep : w.findBlock start = some w') :
    Delivering start w' := by
  obtain ⟨hphase, m, rest, hfront, ⟨block, command, hm, hseq, hnext, rfl⟩ | ⟨command, hnext, hw⟩⟩ :=
    World.findBlock_cases hstep
  · exact h.accept hphase hfront hm hseq hnext
  · have hrefuse := h.refuse hphase hfront hnext
    rcases hw with rfl | rfl
    · exact hrefuse
    · exact hrefuse.emit []

theorem ack (h : Delivering start w) {phase : ConsolePhase}
    (hbusy : phase.busy = w.mcu.phase.busy) :
    Delivering start { w.emit start [] with mcu := { w.mcu with phase := phase } } :=
  (h.emit []).setPhase hbusy

/-! ## What the host does -/

theorem inFlight_append (h : Delivering start w) {host : SerialQueue} {built : List Built}
    (l : List (Numbered (Option Block))) :
    World.inFlight { w with host := host, toMcu := w.toMcu ++ l, built := built } =
      w.inFlight ++ l := by
  simp only [World.inFlight]
  split
  · rename_i hb
    exact List.tail_append_of_ne_nil (h.busy hb)
  · rfl

theorem length_sentQueue (h : Delivering start w) :
    (w.host.sentQueue.length : Int) = w.host.sendSeq - w.host.receiveSeq := by
  have hbase := h.base
  have hsend := h.sendSeq
  have hrange := h.window_range
  rw [h.sentQueue, List.length_drop, World.blocks, List.length_map]
  omega

theorem blocks_of_sentQueue (h : Delivering start w) {i : Nat} {b : Block}
    (hb : w.host.sentQueue[i]? = some b) :
    w.blocks[(w.host.receiveSeq + i - start).toNat]? = some b := by
  have hbase := h.base
  rw [h.sentQueue, List.getElem?_drop] at hb
  rw [← hb]
  congr 1
  omega

theorem sendBatch (h : Delivering start w) (q : Nat) (msgs : List QueueMessage) :
    Delivering start { w with host := serialqueueSendBatch q msgs w.host } :=
  have hlink := sendBatch_link q msgs w.host
  h.setHost hlink.sendSeq hlink.receiveSeq hlink.sentQueue

theorem pull (h : Delivering start w) {qm : Received} {host : SerialQueue}
    (hpull : serialqueuePull w.host = some (qm, host)) :
    Delivering start { w with host := host, pulled := w.pulled ++ [qm] } := by
  unfold serialqueuePull at hpull
  split at hpull
  · cases hpull
  · obtain ⟨-, rfl⟩ := Prod.mk.inj (Option.some.inj hpull)
    exact h.setHost rfl rfl rfl

/-- The host builds the next block, while fewer than 12 wait for an ack. -/
theorem send (h : Delivering start w) {host : SerialQueue} {built : Built}
    (hsent : Sent w.host host built) (hroom : w.host.sendSeq < w.host.receiveSeq + 12) :
    Delivering start
      { w with
        host := host
        toMcu := w.toMcu ++ [{ number := w.host.sendSeq, message := some built.block }]
        built := w.built ++ [built] } := by
  have hbase := h.base
  have hsend := h.sendSeq
  have hrange := h.window_range
  have hblocks : World.blocks
      { w with
        host := host
        toMcu := w.toMcu ++ [{ number := w.host.sendSeq, message := some built.block }]
        built := w.built ++ [built] } = w.blocks ++ [built.block] := by
    simp only [World.blocks, List.map_append, List.map_singleton]
  have hlength : w.blocks.length = w.built.length := List.length_map _
  exact
    { bounded := by
        have hwindow : World.window start
            { w with
              host := host
              toMcu := w.toMcu ++ [{ number := w.host.sendSeq, message := some built.block }]
              built := w.built ++ [built] } =
            { w.window start with
              send := (w.window start).send + 1
              frames := (w.window start).frames ++ [(w.window start).send] } := by
          simp only [World.window, h.inFlight_append, frames, List.filterMap_append,
            hsent.receiveSeq, hsent.sendSeq]
          rfl
        rw [hwindow]
        exact h.bounded.step (by decide) (.send hroom)
      base := by simp only [hsent.receiveSeq]; exact hbase
      sendSeq := by
        simp only [hsent.sendSeq, List.length_append, List.length_singleton]
        push_cast
        omega
      sentQueue := by
        rw [hblocks]
        simp only [hsent.sentQueue, hsent.receiveSeq, h.sentQueue]
        rw [List.drop_append_of_le_length (by omega)]
      nextSequence := h.nextSequence
      dispatched := by
        rw [hblocks]
        exact h.dispatched.trans (List.prefix_append _ _)
      seq := by
        intro i b hb
        rw [hblocks] at hb
        by_cases hi : i < w.blocks.length
        · rw [List.getElem?_append_left hi] at hb
          exact h.seq i b hb
        · have hlt := (List.getElem?_eq_some_iff.mp hb).1
          rw [List.length_append, List.length_singleton] at hlt
          obtain rfl : i = w.blocks.length := by omega
          rw [List.getElem?_append_right (le_refl _), Nat.sub_self, List.getElem?_cons_zero,
            Option.some.injEq] at hb
          rw [← hb, hsent.seq, hsend, hlength]
      toMcu := by
        intro m hm b hb
        rw [hblocks]
        rcases List.mem_append.mp hm with hm | hm
        · obtain ⟨hlow, hplace⟩ := h.toMcu m hm b hb
          refine ⟨hlow, ?_⟩
          rw [List.getElem?_append_left (List.getElem?_eq_some_iff.mp hplace).1]
          exact hplace
        · rw [List.mem_singleton] at hm
          subst hm
          refine ⟨by simp only; omega, ?_⟩
          have hplace : (w.host.sendSeq - start).toNat = w.blocks.length := by omega
          rw [hplace, List.getElem?_append_right (le_refl _), Nat.sub_self,
            List.getElem?_cons_zero]
          exact hb
      toHost := h.toHost
      busy := fun hb hnil => h.busy hb (List.append_eq_nil_iff.mp hnil).1 }

theorem room_of_mustWait (h : Delivering start w) (hbound : w.host.sendSeq < noReceiveSeq - 1)
    (hwait : w.host.mustWait = false) : w.host.sendSeq < w.host.receiveSeq + 12 := by
  have hrange := h.window_range
  have hbase := h.base
  unfold SerialQueue.mustWait at hwait
  have hpending := (Bool.or_eq_false_iff.mp hwait).1
  rw [decide_eq_false_iff_not, not_and_or, not_not] at hpending
  unfold noReceiveSeq at hbound hpending
  unfold maxPendingBlocks u64 at hpending
  omega

theorem command (h : Delivering start w) (hbound : w.host.sendSeq < noReceiveSeq - 1)
    {r : ClockReading} (hstep : w.command r = some w') : Delivering start w' := by
  obtain ⟨hlink, -⟩ := checkSendCommand_readied r w.host
  obtain ⟨sq, heq, hw⟩ := World.command_cases hstep
  rw [heq] at hlink
  have hready : Delivering start { w with host := sq } :=
    h.setHost hlink.sendSeq hlink.receiveSeq hlink.sentQueue
  rcases hw with rfl | ⟨host, built, hwait, hbuild, rfl⟩
  · exact hready
  · have hroom := h.room_of_mustWait hbound hwait
    rw [← hlink.sendSeq]
    refine hready.send (buildAndSendCommand_sent sq _ hbuild) ?_
    simp only [hlink.sendSeq, hlink.receiveSeq]
    exact hroom

/-- All blocks that wait for an ack are sent again. -/
theorem frames_mapIdx (base : Int) (l : List Block) :
    frames (l.mapIdx fun i block => { number := base + i, message := some block }) =
      Window.between base (base + l.length) := by
  have hframes : ∀ l : List (Numbered (Option Block)), (∀ m ∈ l, m.message.isSome) →
      frames l = l.map Numbered.number := by
    intro l
    induction l with
    | nil => intro _; rfl
    | cons m l ih =>
      intro hall
      obtain ⟨b, hb⟩ := Option.isSome_iff_exists.mp (hall m (by simp))
      unfold frames at ih ⊢
      rw [List.filterMap_cons, hb, Option.map_some, List.map_cons]
      simp only
      rw [ih fun m' hm' => hall m' (by simp [hm'])]
  rw [hframes]
  · refine List.ext_getElem ?_ fun i hi hi' => ?_
    · simp [Window.between]
    · simp [Window.between]
  · intro m hm
    obtain ⟨i, hi, rfl⟩ := List.mem_mapIdx.mp hm
    rfl

theorem retransmit (h : Delivering start w) (hstep : w.retransmit = some w') :
    Delivering start w' := by
  have hlength := h.length_sentQueue
  have hbase := h.base
  have hrange := h.window_range
  unfold World.retransmit at hstep
  split at hstep
  · cases hstep
  · obtain rfl := Option.some.inj hstep
    exact
      { bounded := by
          have hwindow : World.window start
              { w with
                host := (retransmitEvent w.host).1
                toMcu := w.toMcu ++ (retransmitEvent w.host).2.mapIdx fun i block =>
                  { number := w.host.receiveSeq + i, message := some block } } =
              { w.window start with
                frames := (w.window start).frames ++
                  Window.between (w.window start).base (w.window start).send } := by
            have hsend : w.host.receiveSeq + w.host.sentQueue.length = w.host.sendSeq := by omega
            have happend := frames_mapIdx w.host.receiveSeq w.host.sentQueue
            rw [hsend] at happend
            simp only [World.window, h.inFlight_append, ← happend]
            simp only [frames, List.filterMap_append]
            rfl
          exact hwindow ▸ h.bounded.step (by decide) .resend
        base := h.base
        sendSeq := h.sendSeq
        sentQueue := h.sentQueue
        nextSequence := h.nextSequence
        dispatched := h.dispatched
        seq := h.seq
        toMcu := by
          intro m hm b hb
          rcases List.mem_append.mp hm with hm | hm
          · exact h.toMcu m hm b hb
          · obtain ⟨i, hi, rfl⟩ := List.mem_mapIdx.mp hm
            obtain rfl := Option.some.inj hb
            exact ⟨by simp only; omega, h.blocks_of_sentQueue (List.getElem?_eq_getElem hi)⟩
        toHost := h.toHost
        busy := fun hb hnil => h.busy hb (List.append_eq_nil_iff.mp hnil).1 }

/-- The number of a message is read as it was meant, and what is acknowledged leaves the
sent queue. -/
theorem handleMessage_spec (h : Delivering start w) {m : Numbered Response}
    {rest : List (Numbered Response)} (hfront : w.toHost = m :: rest) :
    w.host.receiveSeq ≤ m.number ∧ m.number ≤ w.host.sendSeq ∧ ∃ sq, Acked w.host sq m.number ∧
      ∃ timer, handleMessage m.message w.host =
        { checkNotify (u64 (m.number - 1 - if m.message.len > messageMin then 1 else 0)) sq with
          lastAckSeq :=
            if m.message.len = messageMin then max sq.lastAckSeq m.number else sq.lastAckSeq
          receiveQueue :=
            (checkNotify (u64 (m.number - 1 - if m.message.len > messageMin then 1 else 0))
              sq).receiveQueue ++ if m.message.len = messageMin then [] else [.data m.message]
          retransmitTimer := timer } := by
  have hlength := h.length_sentQueue
  have hmem : m ∈ w.toHost := by rw [hfront]; exact List.mem_cons_self
  have hack : m.number ∈ (w.window start).acks := List.mem_map_of_mem hmem
  obtain ⟨hlow, hhigh, hwidth⟩ := h.bounded.ack_range hack
  have hhigh' : m.number ≤ w.host.sendSeq := hhigh
  refine ⟨hlow, hhigh', _, updateReceiveSeq_acked hlow (by omega), ?_⟩
  obtain ⟨timer, hprocess⟩ := processMessage_eq m.number m.message
    (if m.number = w.host.receiveSeq then w.host else updateReceiveSeq m.number w.host)
  exact ⟨timer, (handleMessage_eq hlow hhigh hwidth (h.toHost m hmem)).trans hprocess⟩

/-- An ack moves the window, and the blocks before it leave the sent queue. -/
theorem receive (h : Delivering start w) {m : Numbered Response}
    {rest : List (Numbered Response)} (hfront : w.toHost = m :: rest) :
    Delivering start { w with host := handleMessage m.message w.host, toHost := rest } := by
  have hbase := h.base
  obtain ⟨hlow, -, sq, hacked, timer, heq⟩ := h.handleMessage_spec hfront
  have hsend : (handleMessage m.message w.host).sendSeq = w.host.sendSeq := by
    rw [heq]; exact hacked.sendSeq
  have hreceive : (handleMessage m.message w.host).receiveSeq = m.number := by
    rw [heq]; exact hacked.receiveSeq
  have hsent : (handleMessage m.message w.host).sentQueue =
      w.host.sentQueue.drop (m.number - w.host.receiveSeq).toNat := by
    rw [heq]; exact hacked.sentQueue
  exact
    { bounded := by
        have hwindow : World.window start
            { w with host := handleMessage m.message w.host, toHost := rest } =
            { w.window start with base := m.number, acks := rest.map Numbered.number } := by
          simp only [World.window, hsend, hreceive]
          rfl
        rw [hwindow]
        refine h.bounded.step (by decide) (.ack ?_)
        simp only [World.window, hfront, List.map_cons]
      base := by simp only [hreceive]; omega
      sendSeq := by simp only [hsend]; exact h.sendSeq
      sentQueue := by
        simp only [hsent, hreceive, h.sentQueue, List.drop_drop]
        congr 1
        omega
      nextSequence := h.nextSequence
      dispatched := h.dispatched
      seq := h.seq
      toMcu := h.toMcu
      toHost := fun m' hm' => h.toHost m' (by rw [hfront]; exact List.mem_cons_of_mem _ hm')
      busy := h.busy }

/-- Every event keeps the invariant. -/
theorem step {console : Console} (h : Delivering start w) {e : Event}
    (hbound : w.host.sendSeq < noReceiveSeq - 1) (hstep : w.step start console e = some w') :
    Delivering start w' := by
  cases e with
  | sendBatch q msgs =>
    obtain rfl := Option.some.inj hstep
    exact h.sendBatch q msgs
  | command r => exact h.command hbound hstep
  | receive =>
    simp only [World.step] at hstep
    split at hstep
    · cases hstep
    · rename_i m rest hfront
      obtain rfl := Option.some.inj hstep
      exact h.receive hfront
  | retransmit => exact h.retransmit hstep
  | pull =>
    simp only [World.step, Option.map_eq_some_iff] at hstep
    obtain ⟨⟨qm, host⟩, hpull, rfl⟩ := hstep
    exact h.pull hpull
  | findBlock => exact h.findBlock hstep
  | respond payload =>
    simp only [World.step] at hstep
    split at hstep
    · cases hstep
    · obtain rfl := Option.some.inj hstep
      exact h.emit payload
  | pop =>
    simp only [World.step] at hstep
    split at hstep
    · rename_i hphase
      obtain rfl := Option.some.inj hstep
      exact h.pop (by rw [hphase]; rfl) rfl
    · rename_i hphase
      obtain rfl := Option.some.inj hstep
      exact h.pop (by rw [hphase]; rfl) rfl
    · cases hstep
  | ack =>
    simp only [World.step] at hstep
    split at hstep
    · rename_i hphase
      obtain rfl := Option.some.inj hstep
      exact h.ack (by rw [hphase]; rfl)
    · rename_i hphase
      obtain rfl := Option.some.inj hstep
      exact h.ack (by rw [hphase]; rfl)
    · cases hstep
  | loseToMcu i =>
    simp only [World.step] at hstep
    split at hstep
    · rename_i hlink
      obtain rfl := Option.some.inj hstep
      exact h.loseToMcu hlink
    · cases hstep
  | garble i =>
    simp only [World.step] at hstep
    split at hstep
    · rename_i hlink
      obtain rfl := Option.some.inj hstep
      exact h.garble hlink
    · cases hstep
  | loseToHost i =>
    obtain rfl := Option.some.inj hstep
    exact h.loseToHost i

end Delivering

/-! ## Runs -/

theorem LinkRun.delivering {console : Console} {w w' : World} {es : List Event}
    (hrun : LinkRun w.host.receiveSeq console w es w') (h : Synchronised w) :
    Delivering w.host.receiveSeq w' :=
  hrun.invariant (.init h) fun _ _ _ hdelivering hstep => hdelivering.step hstep.1 hstep.2

/-- Blocks are delivered once and in order.  Whatever is lost, garbled or sent again, the
mcu has dispatched the first of the blocks that were built, and every block that has
left the sent queue is one of those. -/
theorem delivered_in_order {console : Console} {w w' : World} {es : List Event}
    (h : Synchronised w) (hrun : LinkRun w.host.receiveSeq console w es w') :
    w'.dispatched <+: w'.blocks ∧
      ∃ k ≤ w'.dispatched.length, w'.host.sentQueue = w'.blocks.drop k := by
  have hdelivering := hrun.delivering h
  have hbase := hdelivering.base
  have hrange := hdelivering.window_range
  refine ⟨hdelivering.dispatched, (w'.host.receiveSeq - w.host.receiveSeq).toNat, ?_,
    hdelivering.sentQueue⟩
  unfold World.next at hrange
  omega

/-- The two sides with nothing in flight. -/
def linked (sq : SerialQueue) : World where
  host := sq
  mcu := { command := { nextSequence := sq.receiveSeq % 16, needValid := false }, phase := .idle }
  toMcu := []
  toHost := []
  built := []
  dispatched := []
  pulled := []

theorem synchronised_linked {sq : SerialQueue} (hsent : sq.sentQueue = [])
    (hseq : sq.sendSeq = sq.receiveSeq) (hnonneg : 0 ≤ sq.receiveSeq) :
    Synchronised (linked sq) :=
  ⟨hsent, hseq, hnonneg, rfl, rfl, rfl, rfl, rfl, rfl⟩

/-- A host that has got its first ack, with a receive window of 192 bytes. -/
def connectedHost : SerialQueue :=
  handleMessage { seq := 2, payload := [], origin := none }
    { serialqueueAlloc false with receiveWindow := 192 }

theorem synchronised_connectedHost : Synchronised (linked connectedHost) :=
  synchronised_linked rfl rfl (by decide)

/-- Two blocks are sent; the first one is lost, so that the mcu refuses the second and both
are sent again.  The mcu answers the first block before its ack. -/
def lossyEvents : List Event :=
  [.sendBatch 0 [⟨[1, 2], 0, 50, 7⟩], .command ⟨100, 0, 1000, true⟩, .sendBatch 0 [⟨[3], 0, 60, 0⟩],
    .command ⟨100, 0, 1000, true⟩, .loseToMcu 0, .findBlock, .receive, .retransmit, .findBlock,
    .respond [9], .pop, .ack, .findBlock, .receive, .receive, .pull, .pull]

theorem exists_lossyRun :
    ∃ w, LinkRun 2 .serialIrq (linked connectedHost) lossyEvents w ∧
      w.dispatched.map Block.payload = [[1, 2], [3]] ∧
      w.pulled = [.data ⟨3, [9], some 2⟩, .notify ⟨[1, 2], 0, 2, 7⟩] := by
  obtain ⟨w, hrun, hw⟩ := Run.exists_of_allowed (σ := World)
    (C := fun w _ => w.host.sendSeq < noReceiveSeq - 1)
    (f := World.step 2 .serialIrq) (s := linked connectedHost) (l := lossyEvents)
    (P := fun w => decide (w.dispatched.map Block.payload = [[1, 2], [3]] ∧
      w.pulled = [.data ⟨3, [9], some 2⟩, .notify ⟨[1, 2], 0, 2, 7⟩])) (by decide +kernel)
  exact ⟨w, hrun, of_decide_eq_true hw⟩

/-- The run with a lost block. -/
theorem delivered_in_order_lossy :
    ∃ w, LinkRun 2 .serialIrq (linked connectedHost) lossyEvents w ∧
      w.dispatched.map Block.payload = [[1, 2], [3]] ∧ w.dispatched <+: w.blocks := by
  obtain ⟨w, hrun, hdispatched, -⟩ := exists_lossyRun
  exact ⟨w, hrun, hdispatched, (delivered_in_order synchronised_connectedHost hrun).1⟩

end FlsunT1.Link
