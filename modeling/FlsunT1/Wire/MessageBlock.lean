/-
  Wire/MessageBlock.lean --- message blocks as bytes.

  Source: the constants of klipper/klippy/chelper/msgblock.h and klipper/src/
  command.h, which agree, and `msgblock_crc16_ccitt` of klippy/chelper/msgblock.c
  and `crc16_ccitt` of src/generic/crc16_ccitt.c, which have the same text.

  `blocks` is the purpose of the two receivers, stated without them: the message
  blocks that a stream of bytes contains.  Where the stream is not at a block, all
  is skipped up to and with the next SYNC byte.
-/
import Mathlib.Data.List.Basic

set_option autoImplicit false

namespace FlsunT1.Wire

/-- A buffer. -/
abbrev Bytes := List UInt8

/-! ## Constants -/

/-- `MESSAGE_MIN` -/
def messageMin : Nat := 5

/-- `MESSAGE_MAX` -/
def messageMax : Nat := 64

/-- `MESSAGE_HEADER_SIZE` -/
def messageHeaderSize : Nat := 2

/-- `MESSAGE_TRAILER_SIZE` -/
def messageTrailerSize : Nat := 3

/-- `MESSAGE_POS_LEN` -/
def messagePosLen : Nat := 0

/-- `MESSAGE_POS_SEQ` -/
def messagePosSeq : Nat := 1

/-- `MESSAGE_TRAILER_CRC` -/
def messageTrailerCrc : Nat := 3

/-- `MESSAGE_TRAILER_SYNC` -/
def messageTrailerSync : Nat := 1

/-- `MESSAGE_PAYLOAD_MAX` -/
def messagePayloadMax : Nat := messageMax - messageMin

/-- `MESSAGE_SEQ_MASK` -/
def messageSeqMask : UInt8 := 0x0f

/-- `MESSAGE_DEST` -/
def messageDest : UInt8 := 0x10

/-- `MESSAGE_SYNC` -/
def messageSync : UInt8 := 0x7E

/-! ## Reading a buffer -/

/-- `buf[i]` -/
def byteAt (buf : Bytes) (i : Nat) : UInt8 := buf.getD i 0

/-- One round of the loop of `crc16_ccitt`. -/
def crcByte (crc : UInt16) (byte : UInt8) : UInt16 :=
  let data := byte ^^^ (crc &&& 0xff).toUInt8
  let data := data ^^^ (data <<< 4)
  ((data.toUInt16 <<< 8) ||| (crc >>> 8)) ^^^ (data >>> 4).toUInt16 ^^^ (data.toUInt16 <<< 3)

/-- `crc16_ccitt`: the standard crc "ccitt" algorithm on the given buffer. -/
def crc16Ccitt (buf : Bytes) : UInt16 := buf.foldl crcByte 0xffff

/-- The checksum that the trailer of a block of `msglen` bytes gives. -/
def msgCrc (buf : Bytes) (msglen : Nat) : UInt16 :=
  ((byteAt buf (msglen - messageTrailerCrc)).toUInt16 <<< 8) |||
    (byteAt buf (msglen - messageTrailerCrc + 1)).toUInt16

/-- `memchr(buf, MESSAGE_SYNC, buf_len)` -/
def nextSync (buf : Bytes) : Option Nat := buf.findIdx? (· == messageSync)

theorem byteAt_append {buf : Bytes} {i : Nat} (h : i < buf.length) (rest : Bytes) :
    byteAt (buf ++ rest) i = byteAt buf i := by
  simp [byteAt, List.getElem?_append_left h]

theorem nextSync_lt {buf : Bytes} {i : Nat} (h : nextSync buf = some i) : i < buf.length :=
  (List.findIdx?_eq_some_iff_findIdx_eq.mp h).1

theorem nextSync_append_some {buf : Bytes} {i : Nat} (h : nextSync buf = some i)
    (rest : Bytes) : nextSync (buf ++ rest) = some i := by
  unfold nextSync at h ⊢
  rw [List.findIdx?_append, h, Option.some_or]

theorem nextSync_append_none {buf : Bytes} (h : nextSync buf = none) (rest : Bytes) :
    nextSync (buf ++ rest) = (nextSync rest).map (· + buf.length) := by
  unfold nextSync at h ⊢
  rw [List.findIdx?_append, h, Option.none_or]

/-! ## What is at the front of a buffer -/

/-- What a buffer starts with: too little to tell, no block, or a block of some length. -/
inductive Front
  | more
  | bad
  | block (msglen : Nat)
  deriving DecidableEq, Repr

/-- The checks of a block: its length, destination, SYNC byte and checksum. -/
def front (buf : Bytes) : Front :=
  let msglen := (byteAt buf messagePosLen).toNat
  if buf.length < messageMin then .more
  else if msglen < messageMin ∨ messageMax < msglen then .bad
  else if byteAt buf messagePosSeq &&& ~~~messageSeqMask ≠ messageDest then .bad
  else if buf.length < msglen then .more
  else if byteAt buf (msglen - messageTrailerSync) ≠ messageSync then .bad
  else if crc16Ccitt (buf.take (msglen - messageTrailerSize)) ≠ msgCrc buf msglen then .bad
  else .block msglen

theorem front_block {buf : Bytes} {n : Nat} (h : front buf = .block n) :
    messageMin ≤ n ∧ n ≤ messageMax ∧ n ≤ buf.length := by
  simp only [front] at h
  split_ifs at h with h1 h2 h3 h4
  cases h
  simp only [not_or] at h2
  omega

theorem front_bad {buf : Bytes} (h : front buf = .bad) : messageMin ≤ buf.length := by
  simp only [front] at h
  split_ifs at h with h1
  all_goals omega

theorem front_more {buf : Bytes} (h : front buf = .more) : buf.length < messageMax := by
  simp only [front] at h
  split_ifs at h with h1 h2 h3 h4
  · exact Nat.lt_trans h1 (by decide)
  · simp only [not_or] at h2
    omega

theorem msgCrc_append {buf : Bytes} {msglen : Nat} (hmin : messageMin ≤ msglen)
    (hle : msglen ≤ buf.length) (rest : Bytes) :
    msgCrc (buf ++ rest) msglen = msgCrc buf msglen := by
  unfold messageMin at hmin
  unfold msgCrc messageTrailerCrc
  rw [byteAt_append (by omega), byteAt_append (by omega)]

/-- What is known of the front of a buffer is not changed by the bytes that follow. -/
theorem front_append {buf : Bytes} (h : front buf ≠ .more) (rest : Bytes) :
    front (buf ++ rest) = front buf := by
  have hmin : ¬buf.length < messageMin := by
    intro hlt
    simp [front, hlt] at h
  have hmin' : ¬(buf ++ rest).length < messageMin := by
    rw [List.length_append]
    omega
  have hpos : byteAt (buf ++ rest) messagePosLen = byteAt buf messagePosLen :=
    byteAt_append (by simp only [messageMin, messagePosLen] at *; omega) rest
  have hseq : byteAt (buf ++ rest) messagePosSeq = byteAt buf messagePosSeq :=
    byteAt_append (by simp only [messageMin, messagePosSeq] at *; omega) rest
  simp only [front, hmin, hmin', if_false, hpos, hseq] at h ⊢
  generalize (byteAt buf messagePosLen).toNat = msglen at h ⊢
  by_cases hlen : msglen < messageMin ∨ messageMax < msglen
  · rw [if_pos hlen, if_pos hlen]
  by_cases hdest : byteAt buf messagePosSeq &&& ~~~messageSeqMask ≠ messageDest
  · rw [if_neg hlen, if_neg hlen, if_pos hdest, if_pos hdest]
  rw [if_neg hlen, if_neg hdest] at h ⊢
  have hle : msglen ≤ buf.length := by
    by_contra hshort
    exact h (if_pos (Nat.lt_of_not_le hshort))
  have hle' : msglen ≤ (buf ++ rest).length := by
    rw [List.length_append]
    omega
  have hge : messageMin ≤ msglen := by
    rw [not_or] at hlen
    omega
  have hsync : byteAt (buf ++ rest) (msglen - messageTrailerSync) =
      byteAt buf (msglen - messageTrailerSync) :=
    byteAt_append (by simp only [messageMin, messageTrailerSync] at *; omega) rest
  have htake : (buf ++ rest).take (msglen - messageTrailerSize) =
      buf.take (msglen - messageTrailerSize) :=
    List.take_append_of_le_length (by omega)
  simp only [hlen, hdest, if_false, Nat.not_lt.mpr hle, Nat.not_lt.mpr hle', hsync, htake,
    msgCrc_append hge hle]

/-! ## The blocks of a stream -/

/-- The message blocks that a stream contains, from a receiver that is in step with it
or that has to skip to the next SYNC byte first. -/
def blocks (needSync : Bool) (stream : Bytes) : List Bytes :=
  match _h : if needSync then .bad else front stream with
  | .more => []
  | .block msglen => stream.take msglen :: blocks false (stream.drop msglen)
  | .bad =>
      match hs : nextSync stream with
      | none => []
      | some i => blocks false (stream.drop (i + 1))
termination_by stream.length
decreasing_by
  · have hb : front stream = .block msglen := by
      cases needSync
      · simpa using _h
      · simp at _h
    have := front_block hb
    simp only [List.length_drop, messageMin] at *
    omega
  · have := nextSync_lt hs
    rw [List.length_drop]
    omega

theorem blocks_of_more {stream : Bytes} (h : front stream = .more) :
    blocks false stream = [] := by
  rw [blocks]
  split <;> simp_all

theorem blocks_of_block {stream : Bytes} {msglen : Nat} (h : front stream = .block msglen) :
    blocks false stream = stream.take msglen :: blocks false (stream.drop msglen) := by
  rw [blocks]
  split <;> simp_all

theorem blocks_true_of_some {stream : Bytes} {i : Nat} (h : nextSync stream = some i) :
    blocks true stream = blocks false (stream.drop (i + 1)) := by
  rw [blocks]
  split <;> simp_all
  split <;> simp_all

theorem blocks_true_of_none {stream : Bytes} (h : nextSync stream = none) :
    blocks true stream = [] := by
  rw [blocks]
  split <;> simp_all
  split <;> simp_all

theorem blocks_of_bad {stream : Bytes} (h : front stream = .bad) :
    blocks false stream = blocks true stream := by
  rw [blocks]
  split <;> simp_all
  split
  · rw [blocks_true_of_none ‹_›]
  · rw [blocks_true_of_some ‹_›]

theorem blocks_true_append {buf : Bytes} (h : nextSync buf = none) (rest : Bytes) :
    blocks true (buf ++ rest) = blocks true rest := by
  have happend := nextSync_append_none h rest
  cases hrest : nextSync rest with
  | none =>
    rw [hrest, Option.map_none] at happend
    rw [blocks_true_of_none happend, blocks_true_of_none hrest]
  | some i =>
    rw [hrest, Option.map_some] at happend
    rw [blocks_true_of_some happend, blocks_true_of_some hrest]
    congr 1
    rw [show i + buf.length + 1 = buf.length + (i + 1) by omega, List.drop_append]
    simp

theorem blocks_short {needSync : Bool} {stream : Bytes} (h : stream.length < messageMin) :
    blocks needSync stream = [] := by
  have hfalse : ∀ s : Bytes, s.length < messageMin → blocks false s = [] := by
    intro s hs
    apply blocks_of_more
    simp [front, hs]
  cases needSync
  · exact hfalse stream h
  · cases hsync : nextSync stream with
    | none => exact blocks_true_of_none hsync
    | some i =>
      rw [blocks_true_of_some hsync]
      apply hfalse
      rw [List.length_drop]
      omega

/-! ## Receivers -/

/-- What a receiver may do with its buffer: the state that it leaves, the bytes that it
consumes and the block that it finds.  It has to skip when it is not in step, or when the
buffer does not start with a block. -/
inductive Receives (buf : Bytes) : Bool → Bool → Nat → Option Bytes → Prop
  | wait {needSync : Bool} (h : blocks needSync buf = []) : Receives buf needSync needSync 0 none
  | block {msglen : Nat} (h : front buf = .block msglen) :
      Receives buf false false msglen (some (buf.take msglen))
  | skip {needSync : Bool} {i : Nat} (h : needSync = true ∨ front buf = .bad)
      (hsync : nextSync buf = some i) : Receives buf needSync false (i + 1) none
  | lost {needSync : Bool} (h : needSync = true ∨ front buf = .bad)
      (hsync : nextSync buf = none) (hpos : 0 < buf.length) :
      Receives buf needSync true buf.length none

namespace Receives

variable {buf : Bytes} {needSync needSync' : Bool} {n : Nat} {found : Option Bytes}

theorem bounded (h : Receives buf needSync needSync' n found) : n ≤ buf.length := by
  cases h with
  | wait => exact Nat.zero_le _
  | block h => exact (front_block h).2.2
  | skip _ hsync => exact nextSync_lt hsync
  | lost => exact Nat.le_refl _

theorem eq_of_zero (h : Receives buf needSync needSync' 0 found) :
    needSync' = needSync ∧ found = none ∧ blocks needSync buf = [] := by
  generalize hn : 0 = n at h
  cases h with
  | wait h => exact ⟨rfl, rfl, h⟩
  | block h =>
    have := (front_block h).1
    unfold messageMin at this
    omega
  | skip => omega
  | lost _ _ hpos => omega

theorem blocks_append_of_skip (h : needSync = true ∨ front buf = .bad) (rest : Bytes) :
    blocks needSync (buf ++ rest) = blocks true (buf ++ rest) := by
  rcases h with rfl | hbad
  · rfl
  · cases needSync
    · apply blocks_of_bad
      rw [front_append (by simp [hbad]), hbad]
    · rfl

/-- A receiver that consumes bytes takes the blocks of the stream from its front,
whatever follows. -/
theorem blocks_append (h : Receives buf needSync needSync' n found) (hpos : 0 < n)
    (rest : Bytes) :
    blocks needSync (buf ++ rest) = found.toList ++ blocks needSync' (buf.drop n ++ rest) := by
  have hle := h.bounded
  cases h with
  | wait => omega
  | block h =>
    have hfront : front (buf ++ rest) = .block n := by
      rw [front_append (by simp [h]), h]
    rw [blocks_of_block hfront, List.take_append_of_le_length hle,
      List.drop_append_of_le_length hle]
    rfl
  | skip h hsync =>
    rw [blocks_append_of_skip h, blocks_true_of_some (nextSync_append_some hsync rest),
      List.drop_append_of_le_length hle]
    rfl
  | lost h hsync _ =>
    rw [blocks_append_of_skip h, blocks_true_append hsync]
    simp

end Receives

end FlsunT1.Wire
