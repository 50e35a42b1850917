/-
  Wire/HostInput.lean --- the host finds message blocks in its input.

  Source: `msgblock_check`, klipper/klippy/chelper/msgblock.c, and `input_event`,
  klipper/klippy/chelper/serialqueue.c, which passes every block that it finds to
  `handle_message`.
-/
import FlsunT1.Library.Scanner
import FlsunT1.Wire.MessageBlock
import Mathlib.Data.List.Induction

set_option autoImplicit false

namespace FlsunT1.Wire

open FlsunT1.Library

/-! ## Checking the front of the buffer -/

/-- The label `error` of `msgblock_check`: discard bytes until next SYNC found. -/
def msgblockError (buf : Bytes) : Int × Bool :=
  match nextSync buf with
  | some i => (-(i + 1), false)
  | none => (-buf.length, true)

/-- `msgblock_check`: verify a buffer starts with a valid mcu message.  It returns its
result and what is left in `need_sync`. -/
def msgblockCheck (needSync : Bool) (buf : Bytes) : Int × Bool :=
  if buf.length < messageMin then
    -- need more data
    (0, needSync)
  else if needSync then msgblockError buf
  else
    let msglen := (byteAt buf messagePosLen).toNat
    if msglen < messageMin ∨ msglen > messageMax then msgblockError buf
    else
      let msgseq := byteAt buf messagePosSeq
      if msgseq &&& ~~~messageSeqMask ≠ messageDest then msgblockError buf
      else if buf.length < msglen then (0, needSync)
      else if byteAt buf (msglen - messageTrailerSync) ≠ messageSync then msgblockError buf
      else if crc16Ccitt (buf.take (msglen - messageTrailerSize)) ≠ msgCrc buf msglen then
        msgblockError buf
      else (msglen, needSync)

theorem msgblockCheck_eq (needSync : Bool) (buf : Bytes) :
    msgblockCheck needSync buf =
      if buf.length < messageMin then (0, needSync)
      else match if needSync then .bad else front buf with
        | .more => (0, needSync)
        | .bad => msgblockError buf
        | .block msglen => (msglen, needSync) := by
  cases needSync
  · simp only [msgblockCheck, front]
    split_ifs <;> simp_all
  · simp [msgblockCheck]

/-- A result other than 0 consumes at least one byte, and none that is not there. -/
theorem msgblockCheck_consumes {needSync : Bool} {buf : Bytes}
    (h : (msgblockCheck needSync buf).1 ≠ 0) :
    1 ≤ (msgblockCheck needSync buf).1.natAbs ∧
      (msgblockCheck needSync buf).1.natAbs ≤ buf.length := by
  refine ⟨by omega, ?_⟩
  rw [msgblockCheck_eq]
  split
  · simp
  · split
    · simp
    · unfold msgblockError
      split
      · have := nextSync_lt ‹_›
        simp only
        omega
      · simp
    · rename_i msglen hfront
      cases needSync
      · have := front_block (by simpa using hfront)
        simp only
        omega
      · simp at hfront

/-! ## The input of the serialqueue -/

/-- What `struct serialqueue` keeps of its input, and the messages that were passed to
`handle_message`. -/
structure SerialInput where
  needSync : Bool
  inputBuf : Bytes
  bytesInvalid : Nat
  handled : List Bytes
  deriving DecidableEq, Repr

/-- The input after `serialqueue_alloc`. -/
def SerialInput.alloc : SerialInput where
  needSync := false
  inputBuf := []
  bytesInvalid := 0
  handled := []

/-- `sizeof(sq->input_buf)` -/
def inputBufSize : Nat := 4096

/-- One round of the loop of `input_event`; there is none when more data is needed. -/
def inputRound (sq : SerialInput) : Option SerialInput :=
  let (len, needSync) := msgblockCheck sq.needSync sq.inputBuf
  if len = 0 then none
  else if 0 < len then
    -- received a valid message
    some { sq with
      needSync := needSync
      inputBuf := sq.inputBuf.drop len.toNat
      handled := sq.handled ++ [sq.inputBuf.take len.toNat] }
  else
    -- skip bad data at beginning of input
    some { sq with
      needSync := needSync
      inputBuf := sq.inputBuf.drop (-len).toNat
      bytesInvalid := sq.bytesInvalid + (-len).toNat }

/-- The loop of `input_event`, for at most the given number of rounds. -/
def inputLoop : Nat → SerialInput → SerialInput
  | 0, sq => sq
  | rounds + 1, sq =>
      match inputRound sq with
      | none => sq
      | some sq => inputLoop rounds sq

/-- `input_event`, when `read` returns `data`.  There are no more rounds than bytes. -/
def inputEvent (sq : SerialInput) (data : Bytes) : SerialInput :=
  let sq := { sq with inputBuf := sq.inputBuf ++ data }
  inputLoop (sq.inputBuf.length + 1) sq

/-! ## The loop as a scanner -/

/-- A call of `msgblock_check` by `input_event`, with the message it finds. -/
def hostScan (needSync : Bool) (buf : Bytes) : Scanned Bool (Option Bytes) where
  state := (msgblockCheck needSync buf).2
  consumed := (msgblockCheck needSync buf).1.natAbs
  report := if 0 < (msgblockCheck needSync buf).1 then
    some (buf.take (msgblockCheck needSync buf).1.toNat) else none

theorem hostScan_receives (needSync : Bool) (buf : Bytes) :
    Receives buf needSync (hostScan needSync buf).state (hostScan needSync buf).consumed
      (hostScan needSync buf).report := by
  rw [hostScan, msgblockCheck_eq]
  split
  · exact .wait (blocks_short ‹_›)
  rename_i hmin
  split
  · rename_i hmore
    cases needSync
    · exact .wait (blocks_of_more (by simpa using hmore))
    · simp at hmore
  · rename_i hbad
    have hskip : needSync = true ∨ front buf = .bad := by
      cases needSync
      · exact .inr (by simpa using hbad)
      · exact .inl rfl
    unfold msgblockError
    split
    · rename_i i hsync
      rw [show ((-((i : Int) + 1)).natAbs) = i + 1 by omega, if_neg (by simp only; omega)]
      exact .skip hskip hsync
    · rename_i hsync
      rw [Int.natAbs_neg, Int.natAbs_natCast, if_neg (by simp only; omega)]
      unfold messageMin at hmin
      exact .lost hskip hsync (by omega)
  · rename_i msglen hblock
    cases needSync
    · have hfront : front buf = .block msglen := by simpa using hblock
      have hpos := (front_block hfront).1
      unfold messageMin at hpos
      rw [if_pos (by simp only; omega)]
      exact .block hfront
    · simp at hblock

theorem hostScan_reads : Reads hostScan id blocks where
  bounded needSync buf := (hostScan_receives needSync buf).bounded
  wait needSync buf h := by
    have hreceives := hostScan_receives needSync buf
    rw [h] at hreceives
    exact ⟨hreceives.eq_of_zero.1, hreceives.eq_of_zero.2.1⟩
  step needSync buf h rest := (hostScan_receives needSync buf).blocks_append h rest

/-- The input of the serialqueue as the buffer of the scanner. -/
structure SerialInput.Same (sq : SerialInput) (b : Buffered Bool UInt8 (Option Bytes)) : Prop where
  needSync : b.state = sq.needSync
  inputBuf : b.pending = sq.inputBuf
  handled : b.found id = sq.handled

/-- A round is a call of the scanner, and there is none when it waits. -/
theorem inputRound_same {sq : SerialInput} {b : Buffered Bool UInt8 (Option Bytes)}
    (h : sq.Same b) :
    (inputRound sq = none ∧ (hostScan b.state b.pending).consumed = 0) ∨
      ∃ sq', inputRound sq = some sq' ∧ (hostScan b.state b.pending).consumed ≠ 0 ∧
        sq'.Same (b.next hostScan (.poll b.pending.length)) := by
  obtain ⟨hneed, hbuf, hhandled⟩ := h
  rw [hneed, hbuf]
  simp only [inputRound, hostScan]
  rcases Int.lt_trichotomy (msgblockCheck sq.needSync sq.inputBuf).1 0 with hlt | h0 | hpos
  · refine .inr ⟨_, by rw [if_neg (by omega), if_neg (by omega)], by omega, ?_, ?_, ?_⟩
    · simp [Buffered.next, hostScan, hneed, hbuf]
    · simp only [Buffered.next, hostScan, hneed, hbuf, List.take_length]
      congr 1
      omega
    · rw [Buffered.found_next_poll, hhandled, hostScan, hneed, hbuf, List.take_length,
        if_neg (by omega)]
      simp
  · exact .inl ⟨by rw [if_pos h0], by omega⟩
  · refine .inr ⟨_, by rw [if_neg (by omega), if_pos hpos], by omega, ?_, ?_, ?_⟩
    · simp [Buffered.next, hostScan, hneed, hbuf]
    · simp only [Buffered.next, hostScan, hneed, hbuf, List.take_length]
      congr 1
      omega
    · rw [Buffered.found_next_poll, hhandled, hostScan, hneed, hbuf, List.take_length,
        if_pos hpos]
      rfl

/-- The loop of `input_event` calls the scanner until it waits. -/
theorem inputLoop_same (rounds : Nat) {sq : SerialInput}
    {b : Buffered Bool UInt8 (Option Bytes)} (h : sq.Same b) :
    (inputLoop rounds sq).Same (drain hostScan rounds b) := by
  induction rounds generalizing sq b with
  | zero => exact h
  | succ rounds ih =>
    rw [inputLoop, drain]
    rcases inputRound_same h with ⟨hnone, h0⟩ | ⟨sq', hsome, hne, hsame⟩
    · obtain ⟨hstate, hfound⟩ := hostScan_reads.wait _ _ h0
      have hreport : (hostScan b.state b.pending).report = none := hfound
      rw [hnone, if_pos h0]
      refine ⟨?_, ?_, ?_⟩
      · simpa [Buffered.next, hstate] using h.needSync
      · simpa [Buffered.next, h0] using h.inputBuf
      · simpa [Buffered.found, Buffered.next, hreport] using h.handled
    · rw [hsome, if_neg hne]
      exact ih hsame

/-- After any reads the serialqueue waits, with its buffer as the scanner has it. -/
theorem inputEvents_same (reads : List Bytes) :
    ∃ inputs : List (Input UInt8), inputs.flatMap Input.bytes = reads.flatten ∧
      (reads.foldl inputEvent .alloc).Same (inputs.foldl (Buffered.next hostScan) ⟨false, [], []⟩) ∧
      (hostScan (reads.foldl inputEvent .alloc).needSync
        (reads.foldl inputEvent .alloc).inputBuf).consumed = 0 := by
  induction reads using List.reverseRecOn with
  | nil => exact ⟨[], rfl, ⟨rfl, rfl, rfl⟩, rfl⟩
  | append_singleton reads data ih =>
    obtain ⟨inputs, hbytes, hsame, -⟩ := ih
    rw [List.foldl_append]
    generalize reads.foldl inputEvent .alloc = sq at hsame ⊢
    generalize hb : inputs.foldl (Buffered.next hostScan) ⟨false, [], []⟩ = b at hsame
    have hreceive : SerialInput.Same { sq with inputBuf := sq.inputBuf ++ data }
        (b.next hostScan (.receive data)) := by
      obtain ⟨hneed, hbuf, hhandled⟩ := hsame
      exact ⟨hneed, by simp [Buffered.next, hbuf], hhandled⟩
    have hloop := inputLoop_same ((sq.inputBuf ++ data).length + 1) hreceive
    obtain ⟨polls, hpolls, hdrain⟩ := drain_eq_foldl hostScan ((sq.inputBuf ++ data).length + 1)
      (b.next hostScan (.receive data))
    refine ⟨inputs ++ .receive data :: polls, ?_, ?_, ?_⟩
    · simp [hbytes, hpolls, Input.bytes]
    · rw [List.foldl_append, hb, List.foldl_cons (f := Buffered.next hostScan), ← hdrain]
      exact hloop
    · have hwaits := drain_waits hostScan_reads ((sq.inputBuf ++ data).length + 1)
        (b.next hostScan (.receive data)) (by rw [hreceive.inputBuf]; exact Nat.lt_succ_self _)
      rw [hloop.needSync, hloop.inputBuf] at hwaits
      exact hwaits

theorem inputEvents_handled (reads : List Bytes) :
    (reads.foldl inputEvent .alloc).handled = blocks false reads.flatten := by
  obtain ⟨inputs, hbytes, hsame, hwait⟩ := inputEvents_same reads
  have hreceives := hostScan_receives (reads.foldl inputEvent .alloc).needSync
    (reads.foldl inputEvent .alloc).inputBuf
  rw [hwait] at hreceives
  rw [← hbytes, ← hsame.handled]
  apply Buffered.found_all hostScan_reads
  rw [hsame.needSync, hsame.inputBuf]
  exact hreceives.eq_of_zero.2.2

end FlsunT1.Wire
