/-
  Wire/ConsoleInput.lean --- the firmware finds message blocks in its input.

  Source: `command_find_block`, klipper/src/command.c.  The consoles call it on
  what is in their receive buffer, or on at most `MESSAGE_MAX` bytes of it
  (src/linux/console.c, src/pru/pru0.c), and then remove `pop_count` bytes.

  Mcu/Command.lean has the same function with a block as one item; the last section
  here shows that it is what the function does to bytes.
-/
import FlsunT1.Library.Scanner
import FlsunT1.Mcu.Command
import FlsunT1.Wire.MessageBlock
import Mathlib.Data.List.Induction

set_option autoImplicit false

namespace FlsunT1.Wire

open FlsunT1.Library

/-! ## command_find_block -/

/-- The static variables of `command_find_block`: `CF_NEED_SYNC` and `CF_NEED_VALID` of
`sync_state`, and `next_sequence`. -/
structure FindState where
  needSync : Bool
  needValid : Bool
  nextSequence : UInt8
  deriving DecidableEq, Repr

/-- The static variables at startup. -/
def FindState.init : FindState where
  needSync := false
  needValid := false
  nextSequence := messageDest

/-- The result of `command_find_block`, whether it sent a nak, and, before its sequence
test, the block that passed the other checks. -/
structure FindResult where
  ret : Int
  popCount : Nat
  nak : Bool
  block : Option Bytes
  deriving DecidableEq, Repr

/-- The label `need_more_data`. -/
def findNeedMoreData (s : FindState) : FindState × FindResult :=
  (s, { ret := 0, popCount := 0, nak := false, block := none })

/-- The label `need_sync`: discard bytes until next SYNC found. -/
def findNeedSync (s : FindState) (buf : Bytes) : FindState × FindResult :=
  let (s, popCount) := match nextSync buf with
    | some i => ({ s with needSync := false }, i + 1)
    | none => (s, buf.length)
  if s.needValid then (s, { ret := -1, popCount := popCount, nak := false, block := none })
  else
    ({ s with needValid := true }, { ret := -1, popCount := popCount, nak := true, block := none })

/-- The label `error`. -/
def findError (s : FindState) (buf : Bytes) : FindState × FindResult :=
  if byteAt buf 0 = messageSync then
    -- ignore (do not nak) leading SYNC bytes
    (s, { ret := -1, popCount := 1, nak := false, block := none })
  else findNeedSync { s with needSync := true } buf

/-- `command_find_block`: find the next complete message block. -/
def commandFindBlock (s : FindState) (buf : Bytes) : FindState × FindResult :=
  if buf ≠ [] ∧ s.needSync then findNeedSync s buf
  else if buf.length < messageMin then findNeedMoreData s
  else
    let msglen := (byteAt buf messagePosLen).toNat
    if msglen < messageMin ∨ msglen > messageMax then findError s buf
    else
      let msgseq := byteAt buf messagePosSeq
      if msgseq &&& ~~~messageSeqMask ≠ messageDest then findError s buf
      else if buf.length < msglen then findNeedMoreData s
      else if byteAt buf (msglen - messageTrailerSync) ≠ messageSync then findError s buf
      else if crc16Ccitt (buf.take (msglen - messageTrailerSize)) ≠ msgCrc buf msglen then
        findError s buf
      else
        let s := { s with needValid := false }
        -- check sequence number
        if msgseq ≠ s.nextSequence then
          -- lost message - discard messages until it is retransmitted
          (s, { ret := -1, popCount := msglen, nak := true, block := some (buf.take msglen) })
        else
          ({ s with nextSequence := ((msgseq + 1) &&& messageSeqMask) ||| messageDest },
            { ret := 1, popCount := msglen, nak := false, block := some (buf.take msglen) })

/-- The sequence test of `command_find_block`, for a block of `msglen` bytes. -/
def findSequence (s : FindState) (buf : Bytes) (msglen : Nat) : FindState × FindResult :=
  let msgseq := byteAt buf messagePosSeq
  if msgseq ≠ s.nextSequence then
    ({ s with needValid := false },
      { ret := -1, popCount := msglen, nak := true, block := some (buf.take msglen) })
  else
    ({ s with
        needValid := false
        nextSequence := ((msgseq + 1) &&& messageSeqMask) ||| messageDest },
      { ret := 1, popCount := msglen, nak := false, block := some (buf.take msglen) })

theorem commandFindBlock_eq (s : FindState) (buf : Bytes) :
    commandFindBlock s buf =
      if buf ≠ [] ∧ s.needSync then findNeedSync s buf
      else match front buf with
        | .more => findNeedMoreData s
        | .bad => findError s buf
        | .block msglen => findSequence s buf msglen := by
  simp only [commandFindBlock, front, findSequence]
  split_ifs <;> simp_all

theorem findNeedSync_pops {buf : Bytes} (hne : buf ≠ []) (s : FindState) :
    (findNeedSync s buf).2.ret ≠ 0 ∧ 0 < (findNeedSync s buf).2.popCount := by
  have hpos := List.length_pos_of_ne_nil hne
  unfold findNeedSync
  cases nextSync buf <;> cases hv : s.needValid <;> simp [hv, hpos]

theorem findError_pops {buf : Bytes} (hne : buf ≠ []) (s : FindState) :
    (findError s buf).2.ret ≠ 0 ∧ 0 < (findError s buf).2.popCount := by
  unfold findError
  split
  · simp
  · exact findNeedSync_pops hne _

theorem findSequence_pops (s : FindState) (buf : Bytes) (msglen : Nat) :
    (findSequence s buf msglen).2.ret ≠ 0 ∧ (findSequence s buf msglen).2.popCount = msglen := by
  simp only [findSequence]
  split <;> simp

theorem commandFindBlock_pops (s : FindState) (buf : Bytes) :
    commandFindBlock s buf = findNeedMoreData s ∨
      ((commandFindBlock s buf).2.ret ≠ 0 ∧ 0 < (commandFindBlock s buf).2.popCount) := by
  rw [commandFindBlock_eq]
  split
  · rename_i h
    exact .inr (findNeedSync_pops h.1 s)
  cases hfront : front buf with
  | more => exact .inl rfl
  | bad =>
    refine .inr (findError_pops ?_ s)
    rintro rfl
    exact absurd (front_bad hfront) (by decide)
  | block msglen =>
    have hmin := (front_block hfront).1
    unfold messageMin at hmin
    obtain ⟨hret, hpop⟩ := findSequence_pops s buf msglen
    exact .inr ⟨hret, by simp only [hpop]; omega⟩

theorem commandFindBlock_zero {s : FindState} {buf : Bytes}
    (h : (commandFindBlock s buf).2.ret = 0) : buf.length < messageMax := by
  rw [commandFindBlock_eq] at h
  split at h
  · rename_i hneed
    exact absurd h (findNeedSync_pops hneed.1 s).1
  cases hfront : front buf with
  | more => exact front_more hfront
  | bad =>
    rw [hfront] at h
    refine absurd h (findError_pops ?_ s).1
    rintro rfl
    exact absurd (front_bad hfront) (by decide)
  | block msglen =>
    rw [hfront] at h
    exact absurd h (findSequence_pops s buf msglen).1

/-! ## The consoles as scanners -/

/-- A console's call, with what is popped. -/
def consoleScan (s : FindState) (buf : Bytes) : Scanned FindState FindResult where
  state := (commandFindBlock s buf).1
  consumed := (commandFindBlock s buf).2.popCount
  report := (commandFindBlock s buf).2

theorem findNeedSync_receives {s : FindState} {buf : Bytes} {needSync : Bool} (hne : buf ≠ [])
    (h : needSync = true ∨ front buf = .bad) (hs : s.needSync = true) :
    Receives buf needSync (findNeedSync s buf).1.needSync (findNeedSync s buf).2.popCount
      (findNeedSync s buf).2.block := by
  unfold findNeedSync
  cases hsync : nextSync buf with
  | some i => cases s.needValid <;> exact .skip h hsync
  | none =>
    have hlost := Receives.lost h hsync (List.length_pos_of_ne_nil hne)
    cases hv : s.needValid <;> simpa [hv, hs] using hlost

theorem nextSync_zero {buf : Bytes} (hne : buf ≠ []) (h : byteAt buf 0 = messageSync) :
    nextSync buf = some 0 := by
  cases buf with
  | nil => exact absurd rfl hne
  | cons byte rest =>
    have hbyte : byte = messageSync := h
    simp [nextSync, List.findIdx?_cons, hbyte]

theorem consoleScan_receives (s : FindState) (buf : Bytes) :
    Receives buf s.needSync (consoleScan s buf).state.needSync (consoleScan s buf).consumed
      (consoleScan s buf).report.block := by
  rw [consoleScan, commandFindBlock_eq]
  split
  · rename_i h
    exact findNeedSync_receives h.1 (.inl h.2) h.2
  rename_i hneed
  cases hfront : front buf with
  | more =>
    apply Receives.wait
    cases hs : s.needSync
    · exact blocks_of_more hfront
    · have hnil : buf = [] := by
        by_contra hne
        exact hneed ⟨hne, hs⟩
      exact blocks_short (by rw [hnil]; decide)
  | bad =>
    have hmin := front_bad hfront
    have hne : buf ≠ [] := by
      rintro rfl
      exact absurd hmin (by decide)
    have hs : s.needSync = false := by
      cases hs : s.needSync
      · rfl
      · exact absurd ⟨hne, hs⟩ hneed
    simp only [findError]
    split
    · simpa [hs] using Receives.skip (.inr hfront) (nextSync_zero hne ‹_›)
    · exact findNeedSync_receives hne (.inr hfront) rfl
  | block msglen =>
    have hmin := (front_block hfront).1
    have hs : s.needSync = false := by
      cases hs : s.needSync
      · rfl
      · refine absurd ⟨?_, hs⟩ hneed
        rintro rfl
        exact absurd (front_block hfront).2.2 (by unfold messageMin at hmin; simp; omega)
    simp only [findSequence]
    split <;> simpa [hs] using Receives.block hfront

theorem consoleScan_reads :
    Reads consoleScan FindResult.block (fun s => blocks s.needSync) where
  bounded s buf := (consoleScan_receives s buf).bounded
  wait s buf h := by
    rcases commandFindBlock_pops s buf with hmore | ⟨-, hpos⟩
    · simp [consoleScan, hmore, findNeedMoreData]
    · exact absurd h (Nat.ne_of_gt hpos)
  step s buf h rest := (consoleScan_receives s buf).blocks_append h rest

/-- A console whose call returns 0 has found all blocks of the stream, when it passes all
that it has or at least the bytes of the longest block. -/
theorem console_found {inputs : List (Input UInt8)} {s : FindState}
    {w : Buffered FindState UInt8 FindResult} {limit : Nat}
    (hw : inputs.foldl (Buffered.next consoleScan) ⟨s, [], []⟩ = w)
    (hlimit : min w.pending.length messageMax ≤ limit)
    (hidle : (commandFindBlock w.state (w.pending.take limit)).2.ret = 0) :
    w.found FindResult.block = blocks s.needSync (inputs.flatMap Input.bytes) := by
  have hlen := commandFindBlock_zero hidle
  have htake : w.pending.take limit = w.pending := by
    apply List.take_of_length_le
    rw [List.length_take] at hlen
    omega
  have hwait : (consoleScan w.state w.pending).consumed = 0 := by
    rw [htake] at hidle
    rcases commandFindBlock_pops w.state w.pending with hmore | ⟨hret, -⟩
    · simp [consoleScan, hmore, findNeedMoreData]
    · exact absurd hidle hret
  have hreceives := consoleScan_receives w.state w.pending
  rw [hwait] at hreceives
  subst hw
  exact Buffered.found_all consoleScan_reads hreceives.eq_of_zero.2.2

/-! ## Naks -/

/-- No block is in this part of the log. -/
def NoBlock (log : List FindResult) : Prop := ∀ r ∈ log, r.block = none

/-- The naks of a part of the log. -/
def naks (log : List FindResult) : Nat := log.countP FindResult.nak

/-- Garbage is answered by one nak until a block is valid: `CF_NEED_VALID` says whether
the garbage since the last block was. -/
structure NakOnce (s : FindState) (log : List FindResult) : Prop where
  between : ∀ pre mid post, log = pre ++ mid ++ post → NoBlock mid → naks mid ≤ 1
  since : ∀ pre mid, log = pre ++ mid → NoBlock mid → naks mid ≤ if s.needValid then 1 else 0

/-- What a call does about the nak: a block resets it, the first garbage is answered by
one, and any other call leaves it alone. -/
inductive NakStep (s s' : FindState) (r : FindResult) : Prop
  | block (hblock : r.block ≠ none) (h : s'.needValid = false)
  | nak (hblock : r.block = none) (hnak : r.nak = true) (h : s.needValid = false)
      (h' : s'.needValid = true)
  | none (hblock : r.block = none) (hnak : r.nak = false) (h : s'.needValid = s.needValid)

theorem findNeedSync_nak (s : FindState) (buf : Bytes) :
    NakStep s (findNeedSync s buf).1 (findNeedSync s buf).2 := by
  unfold findNeedSync
  cases nextSync buf <;> cases hv : s.needValid
  all_goals
    first
    | exact .nak (by simp [hv]) (by simp [hv]) hv (by simp [hv])
    | exact .none (by simp [hv]) (by simp [hv]) (by simp [hv])

theorem commandFindBlock_nak (s : FindState) (buf : Bytes) :
    NakStep s (commandFindBlock s buf).1 (commandFindBlock s buf).2 := by
  rw [commandFindBlock_eq]
  split
  · exact findNeedSync_nak s buf
  cases front buf with
  | more => exact .none rfl rfl rfl
  | bad =>
    simp only [findError]
    split
    · exact .none rfl rfl rfl
    · cases findNeedSync_nak { s with needSync := true } buf with
      | block hblock h => exact .block hblock h
      | nak hblock hnak h h' => exact .nak hblock hnak h h'
      | none hblock hnak h => exact .none hblock hnak h
  | block msglen =>
    simp only [findSequence]
    split <;> exact .block (by simp) rfl

/-- A call keeps the invariant. -/
theorem NakOnce.step {s s' : FindState} {log : List FindResult} {r : FindResult}
    (h : NakOnce s log) (hr : NakStep s s' r) : NakOnce s' (log ++ [r]) := by
  have hsince : ∀ pre mid, log ++ [r] = pre ++ mid → NoBlock mid →
      naks mid ≤ if s'.needValid then 1 else 0 := by
    intro pre mid hlog hmid
    rcases List.eq_nil_or_concat' mid with rfl | ⟨init, r', rfl⟩
    · exact Nat.zero_le _
    rw [← List.append_assoc] at hlog
    obtain ⟨hinit, hlast⟩ := List.append_inj' hlog rfl
    rw [List.singleton_inj] at hlast
    subst hlast
    have hinit : naks init ≤ if s.needValid then 1 else 0 :=
      h.since pre init hinit fun x hx => hmid x (List.mem_append_left _ hx)
    have hnone : r.block = none := hmid r (by simp)
    rw [naks, List.countP_append, List.countP_singleton]
    unfold naks at hinit
    cases hr with
    | block hblock _ => exact absurd hnone hblock
    | nak _ hnak hv hv' => simpa [hnak, hv, hv'] using hinit
    | none _ hnak hv => simpa [hnak, hv] using hinit
  refine ⟨?_, hsince⟩
  intro pre mid post hlog hmid
  rcases List.eq_nil_or_concat' post with rfl | ⟨init, r', rfl⟩
  · rw [List.append_nil] at hlog
    have hle := hsince pre mid hlog hmid
    exact hle.trans (by split <;> omega)
  · rw [← List.append_assoc] at hlog
    exact h.between pre mid init (List.append_inj' hlog rfl).1 hmid

/-- Whatever arrives, and whenever the console looks at it, garbage is answered by one
nak at most until a block is valid. -/
theorem console_nakOnce (inputs : List (Input UInt8)) (s : FindState) :
    NakOnce (inputs.foldl (Buffered.next consoleScan) ⟨s, [], []⟩).state
      (inputs.foldl (Buffered.next consoleScan) ⟨s, [], []⟩).log := by
  induction inputs using List.reverseRecOn with
  | nil =>
    refine ⟨?_, ?_⟩
    · intro pre mid post hlog _
      simp_all [naks]
    · intro pre mid hlog _
      simp_all [naks]
  | append_singleton inputs input ih =>
    rw [List.foldl_append]
    cases input with
    | receive bytes => exact ih
    | poll limit => exact ih.step (commandFindBlock_nak _ _)

/-! ## The function on whole blocks -/

/-- The lowest four bits of a sequence byte. -/
def seqOf (msgseq : UInt8) : Int := msgseq.toNat % 16

/-- A sequence byte has the bit `MESSAGE_DEST`. -/
def IsSeq (msgseq : UInt8) : Prop := msgseq &&& ~~~messageSeqMask = messageDest

/-- The static variables as Mcu/Command.lean has them. -/
def FindState.command (s : FindState) : Mcu.CommandState where
  nextSequence := seqOf s.nextSequence
  needValid := s.needValid

theorem isSeq_toNat {msgseq : UInt8} (h : IsSeq msgseq) :
    msgseq.toNat = 16 + msgseq.toNat % 16 := by
  have hbits : ∀ v : BitVec 8, v &&& 240#8 = 16#8 → v.toNat = 16 + v.toNat % 16 := by decide
  exact hbits msgseq.toBitVec (congrArg UInt8.toBitVec h)

theorem seqOf_next {msgseq : UInt8} (h : IsSeq msgseq) :
    IsSeq (((msgseq + 1) &&& messageSeqMask) ||| messageDest) ∧
      seqOf (((msgseq + 1) &&& messageSeqMask) ||| messageDest) = (seqOf msgseq + 1) % 16 := by
  have hbits : ∀ v : BitVec 8, v &&& 240#8 = 16#8 →
      (((v + 1) &&& 15#8) ||| 16#8) &&& 240#8 = 16#8 ∧
        (((v + 1) &&& 15#8) ||| 16#8).toNat % 16 = (v.toNat % 16 + 1) % 16 := by decide
  obtain ⟨hseq, hnext⟩ := hbits msgseq.toBitVec (congrArg UInt8.toBitVec h)
  refine ⟨UInt8.toBitVec_inj.mp hseq, ?_⟩
  unfold seqOf
  exact_mod_cast hnext

theorem seqOf_inj {a b : UInt8} (ha : IsSeq a) (hb : IsSeq b) : seqOf a = seqOf b ↔ a = b := by
  constructor
  · intro h
    have ha' := isSeq_toNat ha
    have hb' := isSeq_toNat hb
    unfold seqOf at h
    exact UInt8.toNat_inj.mp (by omega)
  · rintro rfl
    rfl

theorem front_block_isSeq {buf : Bytes} {n : Nat} (h : front buf = .block n) :
    IsSeq (byteAt buf messagePosSeq) := by
  simp only [front] at h
  split_ifs at h with h1 h2 h3
  exact not_not.mp h3

/-- A call's report, as the function on whole blocks gives it. -/
def FindResult.verdict (r : FindResult) : Mcu.BlockResult :=
  if r.ret = 1 then .dispatch else if r.nak then .nak else .discard

/-- `command_find_block` on bytes does with a block, and with garbage that does not start
with a SYNC byte, what it does with them as one item. -/
theorem commandFindBlock_command {s : FindState} {buf : Bytes} (hs : IsSeq s.nextSequence)
    (hret : (commandFindBlock s buf).2.ret ≠ 0) :
    IsSeq (commandFindBlock s buf).1.nextSequence ∧
      (((commandFindBlock s buf).2 = { ret := -1, popCount := 1, nak := false, block := none } ∧
          (commandFindBlock s buf).1.command = s.command) ∨
        ∃ msgseq : Option Int,
          msgseq = (commandFindBlock s buf).2.block.map
            (fun block => seqOf (byteAt block messagePosSeq)) ∧
          (commandFindBlock s buf).1.command = (Mcu.commandFindBlock msgseq s.command).1 ∧
          (Mcu.commandFindBlock msgseq s.command).2 = (commandFindBlock s buf).2.verdict) := by
  have hgarbage : ∀ s : FindState, IsSeq s.nextSequence →
      IsSeq (findNeedSync s buf).1.nextSequence ∧
        ∃ msgseq : Option Int,
          msgseq = (findNeedSync s buf).2.block.map
            (fun block => seqOf (byteAt block messagePosSeq)) ∧
          (findNeedSync s buf).1.command = (Mcu.commandFindBlock msgseq s.command).1 ∧
          (Mcu.commandFindBlock msgseq s.command).2 = (findNeedSync s buf).2.verdict := by
    intro s hs
    unfold findNeedSync
    cases nextSync buf <;> cases hv : s.needValid <;>
      simp [Mcu.commandFindBlock, FindState.command, FindResult.verdict, hv, hs]
  rw [commandFindBlock_eq] at hret ⊢
  split
  · exact ⟨(hgarbage s hs).1, .inr (hgarbage s hs).2⟩
  rename_i hneed
  rw [if_neg hneed] at hret
  cases hfront : front buf with
  | more =>
    rw [hfront] at hret
    exact absurd rfl hret
  | bad =>
    simp only [findError]
    split
    · exact ⟨hs, .inl ⟨rfl, rfl⟩⟩
    · exact ⟨(hgarbage { s with needSync := true } hs).1,
        .inr (hgarbage { s with needSync := true } hs).2⟩
  | block msglen =>
    have hseq := front_block_isSeq hfront
    have hlen := front_block hfront
    have hbyte : byteAt (buf.take msglen) messagePosSeq = byteAt buf messagePosSeq := by
      have hlt : messagePosSeq < msglen := by
        unfold messageMin at hlen
        unfold messagePosSeq
        omega
      simp [byteAt, hlt]
    simp only [findSequence]
    split
    · rename_i hne
      refine ⟨hs, .inr ⟨some (seqOf (byteAt buf messagePosSeq)), by simp [hbyte], ?_, ?_⟩⟩
      all_goals
        have hne' : seqOf (byteAt buf messagePosSeq) ≠ seqOf s.nextSequence :=
          fun h => hne ((seqOf_inj hseq hs).mp h)
        simp [Mcu.commandFindBlock, FindState.command, FindResult.verdict, hne']
    · rename_i heq
      have heq' : byteAt buf messagePosSeq = s.nextSequence := not_not.mp heq
      refine ⟨(seqOf_next hseq).1, .inr ⟨some (seqOf (byteAt buf messagePosSeq)), ?_, ?_, ?_⟩⟩
      · simp [hbyte]
      · simp [Mcu.commandFindBlock, FindState.command, heq', (seqOf_next hs).2]
      · simp [Mcu.commandFindBlock, FindState.command, FindResult.verdict, heq']

/-- What the function on whole blocks does with some items. -/
def receive (items : List (Option Int)) (s : Mcu.CommandState) :
    Mcu.CommandState × List Mcu.BlockResult :=
  items.foldl
    (fun r item => ((Mcu.commandFindBlock item r.1).1, r.2 ++ [(Mcu.commandFindBlock item r.1).2]))
    (s, [])

theorem receive_snoc (items : List (Option Int)) (item : Option Int) (s : Mcu.CommandState) :
    receive (items ++ [item]) s =
      ((Mcu.commandFindBlock item (receive items s).1).1,
        (receive items s).2 ++ [(Mcu.commandFindBlock item (receive items s).1).2]) :=
  List.foldl_append

/-- Whatever arrives, and whenever the console looks at it, it dispatches and naks what the
function on whole blocks does, in the same order, for the blocks that are found and some
garbage between them. -/
theorem console_command {inputs : List (Input UInt8)} {s : FindState}
    {w : Buffered FindState UInt8 FindResult} (hs : IsSeq s.nextSequence)
    (hw : inputs.foldl (Buffered.next consoleScan) ⟨s, [], []⟩ = w) :
    IsSeq w.state.nextSequence ∧ ∃ items : List (Option Int),
      items.filterMap id =
        (w.found FindResult.block).map (fun block => seqOf (byteAt block messagePosSeq)) ∧
      (receive items s.command).1 = w.state.command ∧
      (receive items s.command).2.filter (· ≠ .discard) =
        (w.log.map FindResult.verdict).filter (· ≠ .discard) := by
  induction inputs using List.reverseRecOn generalizing w with
  | nil => exact hw ▸ ⟨hs, [], rfl, rfl, rfl⟩
  | append_singleton inputs input ih =>
    obtain ⟨hseq, items, hblocks, hstate, hlog⟩ := ih rfl
    rw [List.foldl_append, List.foldl_cons, List.foldl_nil] at hw
    cases input with
    | receive bytes => exact hw ▸ ⟨hseq, items, hblocks, hstate, hlog⟩
    | poll limit =>
      clear ih
      generalize inputs.foldl (Buffered.next consoleScan) ⟨s, [], []⟩ = v at *
      subst hw
      rcases commandFindBlock_pops v.state (v.pending.take limit) with hmore | ⟨hret, -⟩
      · refine ⟨?_, items, ?_⟩
        all_goals
          simp_all [Buffered.next, consoleScan, findNeedMoreData, Buffered.found,
            FindResult.verdict]
      obtain ⟨hseq', ⟨hskip, hcommand⟩ | ⟨item, hitem, hnext, hverdict⟩⟩ :=
        commandFindBlock_command hseq hret
      · refine ⟨hseq', items, ?_⟩
        simp_all [Buffered.next, consoleScan, Buffered.found, FindResult.verdict]
      · refine ⟨hseq', items ++ [item], ?_, ?_, ?_⟩
        · rw [Buffered.found_next_poll, List.map_append, ← hblocks, List.filterMap_append, hitem]
          cases h : (commandFindBlock v.state (v.pending.take limit)).2.block <;>
            simp [consoleScan, h]
        · rw [receive_snoc, hstate]
          exact hnext.symm
        · rw [receive_snoc, hstate, List.filter_append, hlog, hverdict]
          simp [Buffered.next, consoleScan, FindResult.verdict]

/-- The first block of a link, an empty one, and what a garbled byte makes of it. -/
theorem console_command_first :
    IsSeq ([Input.receive [5, 16, 158, 129, 126, 5, 16, 158, 1, 126], .poll 10, .poll 5].foldl
      (Buffered.next consoleScan) ⟨.init, [], []⟩).state.nextSequence :=
  (console_command (s := .init) rfl rfl).1

end FlsunT1.Wire
