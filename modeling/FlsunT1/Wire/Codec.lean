/-
  Wire/Codec.lean --- integers and frames on the wire, as the C code has them.

  Source: `encode_int` and `parse_int`, which klipper/src/command.c and
  klipper/klippy/chelper/msgblock.c have with the same text, `command_add_frame` of
  the first, and the end of `build_and_send_command`, klippy/chelper/serialqueue.c.

  A pointer into a buffer is the part of the buffer from there on.
-/
import FlsunT1.Library.Vlq
import FlsunT1.Wire.MessageBlock

set_option autoImplicit false

namespace FlsunT1.Wire

open FlsunT1.Library

/-! ## Integers -/

/-- `encode_int`: encode an integer as a variable length quantity (vlq). -/
def encodeInt (v : UInt32) : Bytes :=
  let sv := v.toInt32.toInt
  let f4 := [(v &&& 0x7f).toUInt8]
  let f3 := (((v >>> 7) &&& 0x7f) ||| 0x80).toUInt8 :: f4
  let f2 := (((v >>> 14) &&& 0x7f) ||| 0x80).toUInt8 :: f3
  let f1 := (((v >>> 21) &&& 0x7f) ||| 0x80).toUInt8 :: f2
  if sv < 3 * 2 ^ 5 ∧ sv ≥ -2 ^ 5 then f4
  else if sv < 3 * 2 ^ 12 ∧ sv ≥ -2 ^ 12 then f3
  else if sv < 3 * 2 ^ 19 ∧ sv ≥ -2 ^ 19 then f2
  else if sv < 3 * 2 ^ 26 ∧ sv ≥ -2 ^ 26 then f1
  else ((v >>> 28) ||| 0x80).toUInt8 :: f1

/-- The loop of `parse_int`. -/
def parseIntLoop (v : UInt32) : Bytes → Option (UInt32 × Bytes)
  | [] => none
  | c :: p =>
      let v := (v <<< 7) ||| (c &&& 0x7f).toUInt32
      if c &&& 0x80 ≠ 0 then parseIntLoop v p else some (v, p)

/-- `parse_int`: parse an integer that was encoded as a "variable length quantity".  There
is no result when it reads past the end of the memory. -/
def parseInt : Bytes → Option (UInt32 × Bytes)
  | [] => none
  | c :: p =>
      let v := (c &&& 0x7f).toUInt32
      let v := if c &&& 0x60 = 0x60 then v ||| -0x20 else v
      if c &&& 0x80 ≠ 0 then parseIntLoop v p else some (v, p)

/-! ## The operations on words as arithmetic -/

theorem toInt32_toInt (v : UInt32) :
    v.toInt32.toInt = if v.toNat < 2 ^ 31 then (v.toNat : Int) else v.toNat - 2 ^ 32 := by
  show v.toBitVec.toInt = _
  rw [BitVec.toInt_eq_toNat_cond, UInt32.toNat_toBitVec]
  split <;> split <;> omega

theorem lastByte_eq (v : UInt32) : (v &&& 0x7f).toUInt8 = Vlq.lastByte v.toNat := by
  have hmask : (0x7f : UInt32).toNat = 2 ^ 7 - 1 := rfl
  apply UInt8.toNat_inj.mp
  rw [UInt32.toNat_toUInt8, UInt32.toNat_and, hmask, Nat.and_two_pow_sub_one_eq_mod,
    Vlq.lastByte, UInt8.toNat_ofNat']
  omega

theorem or_0x80 {n : Nat} (h : n < 128) : n ||| 128 = n + 128 := by
  rw [Nat.or_comm, ← Nat.two_pow_add_eq_or_of_lt (show n < 2 ^ 7 from h) 1]
  omega

/-- `((v>>k) & 0x7f) | 0x80` -/
theorem contByte_eq (v : UInt32) {k : UInt32} {n : Nat} (hk : k.toNat = 7 * n) (hn : n < 5) :
    (((v >>> k) &&& 0x7f) ||| 0x80).toUInt8 = Vlq.contByte (v.toNat / 128 ^ n) := by
  have hmask : (0x7f : UInt32).toNat = 2 ^ 7 - 1 := rfl
  have hbit : (0x80 : UInt32).toNat = 128 := rfl
  have hpow : 2 ^ (7 * n) = 128 ^ n := pow_mul 2 7 n
  have hmod : 7 * n % 32 = 7 * n := Nat.mod_eq_of_lt (by omega)
  apply UInt8.toNat_inj.mp
  rw [UInt32.toNat_toUInt8, UInt32.toNat_or, UInt32.toNat_and, UInt32.toNat_shiftRight, hk,
    hmod, Nat.shiftRight_eq_div_pow, hmask,
    Nat.and_two_pow_sub_one_eq_mod, hbit, or_0x80 (Nat.mod_lt _ (by decide)), hpow,
    Vlq.contByte, UInt8.toNat_ofNat']
  have hcast : (v.toNat / 128 ^ n % 128 : Int) = (v.toNat / 128 ^ n % 128 : Nat) := by
    push_cast
    rfl
  rw [hcast, Int.toNat_natCast]

/-- `(v>>28) | 0x80` -/
theorem firstByte_eq (v : UInt32) :
    ((v >>> 28) ||| 0x80).toUInt8 = Vlq.contByte (v.toNat / 128 ^ 4) := by
  have hlt := v.toNat_lt
  have hbit : (0x80 : UInt32).toNat = 128 := rfl
  have hshift : (28 : UInt32).toNat % 32 = 28 := rfl
  apply UInt8.toNat_inj.mp
  rw [UInt32.toNat_toUInt8, UInt32.toNat_or, UInt32.toNat_shiftRight, hshift,
    Nat.shiftRight_eq_div_pow, hbit, or_0x80 (by omega), Vlq.contByte, UInt8.toNat_ofNat']
  omega

theorem and_0x80 (c : UInt8) : c &&& 0x80 ≠ 0 ↔ Vlq.More c := by
  have hbits : ∀ c : BitVec 8, c &&& 128#8 ≠ 0#8 ↔ 128 ≤ c.toNat := by decide
  exact (not_congr UInt8.toBitVec_inj.symm).trans (hbits c.toBitVec)

theorem and_0x60 (c : UInt8) : c &&& 0x60 = 0x60 ↔ 96 ≤ Vlq.digit c := by
  have hbits : ∀ c : BitVec 8, c &&& 96#8 = 96#8 ↔ 96 ≤ (c.toNat % 128 : Int) := by decide
  exact UInt8.toBitVec_inj.symm.trans (hbits c.toBitVec)

theorem toNat_digit (c : UInt8) : ((c &&& 0x7f).toUInt32.toNat : Int) = Vlq.digit c := by
  have hmask : (0x7f : UInt8).toNat = 2 ^ 7 - 1 := rfl
  rw [UInt8.toNat_toUInt32, UInt8.toNat_and, hmask, Nat.and_two_pow_sub_one_eq_mod, Vlq.digit]
  omega

/-- `v = c & 0x7f; if ((c & 0x60) == 0x60) v |= -0x20` -/
theorem toNat_signDigit (c : UInt8) :
    ((if c &&& 0x60 = 0x60 then (c &&& 0x7f).toUInt32 ||| -0x20
        else (c &&& 0x7f).toUInt32 : UInt32).toNat : Int) = Vlq.signDigit c % 2 ^ 32 := by
  rw [Vlq.signDigit]
  split
  · rename_i h
    have hbits : ∀ c : BitVec 8, 96 ≤ (c.toNat % 128 : Int) →
        (((c &&& 127#8).zeroExtend 32 ||| -32#32).toNat : Int) =
          (c.toNat % 128 - 128) % 2 ^ 32 := by decide
    rw [if_pos ((and_0x60 c).mp h)]
    exact hbits c.toBitVec ((and_0x60 c).mp h)
  · rename_i h
    rw [if_neg (fun hc => h ((and_0x60 c).mpr hc)), toNat_digit, Vlq.digit]
    omega

/-- `v = (v<<7) | (c & 0x7f)` -/
theorem toNat_shiftDigit {v : UInt32} {x : Int} (h : (v.toNat : Int) = x % 2 ^ 32) (c : UInt8) :
    (((v <<< 7) ||| (c &&& 0x7f).toUInt32).toNat : Int) = (x * 128 + Vlq.digit c) % 2 ^ 32 := by
  have hdigit := toNat_digit c
  have hshift : (7 : UInt32).toNat % 32 = 7 := rfl
  have hpow : v.toNat * 2 ^ 7 % 2 ^ 32 = 2 ^ 7 * (v.toNat % 2 ^ 25) := by omega
  have hlt : (c &&& 0x7f).toUInt32.toNat < 2 ^ 7 := by
    rw [Vlq.digit] at hdigit
    omega
  rw [UInt32.toNat_or, UInt32.toNat_shiftLeft, hshift, Nat.shiftLeft_eq, hpow,
    ← Nat.two_pow_add_eq_or_of_lt hlt]
  omega

/-! ## Reading -/

theorem eq_ofInt {v : UInt32} {x : Int} (h : (v.toNat : Int) = x % 2 ^ 32) :
    v = UInt32.ofInt x := by
  apply UInt32.toNat_inj.mp
  rw [UInt32.ofInt, UInt32.toNat_ofNat', ← h, Int.toNat_natCast]
  exact (Nat.mod_eq_of_lt v.toNat_lt).symm

/-- `parse_int` reads what is written, modulo `2^32`. -/
theorem parseIntLoop_eq {v : UInt32} {x y : Int} {p rest : Bytes}
    (hv : (v.toNat : Int) = x % 2 ^ 32) (h : Vlq.readTail x p = some (y, rest)) :
    parseIntLoop v p = some (UInt32.ofInt y, rest) := by
  induction p generalizing v x with
  | nil => cases h
  | cons c p ih =>
    have hstep := toNat_shiftDigit hv c
    rw [Vlq.readTail] at h
    rw [parseIntLoop]
    by_cases hmore : Vlq.More c
    · rw [if_pos hmore] at h
      rw [if_pos ((and_0x80 c).mpr hmore)]
      exact ih hstep h
    · rw [if_neg hmore, Option.some.injEq, Prod.mk.injEq] at h
      rw [if_neg (fun hc => hmore ((and_0x80 c).mp hc)), ← h.1, ← h.2]
      rw [eq_ofInt hstep]

theorem parseInt_eq {y : Int} {p rest : Bytes} (h : Vlq.read p = some (y, rest)) :
    parseInt p = some (UInt32.ofInt y, rest) := by
  cases p with
  | nil => cases h
  | cons c p =>
    have hsign := toNat_signDigit c
    rw [Vlq.read] at h
    rw [parseInt]
    by_cases hmore : Vlq.More c
    · rw [if_pos hmore] at h
      rw [if_pos ((and_0x80 c).mpr hmore)]
      exact parseIntLoop_eq hsign h
    · rw [if_neg hmore, Option.some.injEq, Prod.mk.injEq] at h
      rw [if_neg (fun hc => hmore ((and_0x80 c).mp hc)), ← h.1, ← h.2, ← eq_ofInt hsign]

/-! ## Writing -/

/-- The number whose digits `encode_int` writes.  The first byte of five drops the sign
bits, so the large negative numbers are written as unsigned ones. -/
def encodedInt (v : UInt32) : Int :=
  if v.toInt32.toInt < -2 ^ 26 then v.toNat else v.toInt32.toInt

theorem contByte_toInt32 (v : UInt32) {n : Nat} (hn : n < 4) :
    Vlq.contByte (v.toNat / 128 ^ n) = Vlq.contByte (v.toInt32.toInt / 128 ^ n) := by
  have hv := toInt32_toInt v
  have hmod : (v.toNat : Int) / 128 ^ n % 128 = v.toInt32.toInt / 128 ^ n % 128 := by
    match n, hn with
    | 0, _ => split at hv <;> omega
    | 1, _ => split at hv <;> omega
    | 2, _ => split at hv <;> omega
    | 3, _ => split at hv <;> omega
  rw [Vlq.contByte, Vlq.contByte, hmod]

/-- `encode_int` writes that number with the digits that hold it. -/
theorem encodeInt_eq (v : UInt32) :
    ∃ n ≤ 4, encodeInt v = Vlq.write n (encodedInt v) ∧ Vlq.InRange n (encodedInt v) := by
  have hlt := v.toNat_lt
  have hv := toInt32_toInt v
  have hlast : (v &&& 0x7f).toUInt8 = Vlq.lastByte v.toInt32.toInt := by
    rw [lastByte_eq, Vlq.lastByte, Vlq.lastByte]
    split at hv <;> congr 2 <;> omega
  have h1 := contByte_eq v (k := 7) (n := 1) rfl (by decide)
  have h2 := contByte_eq v (k := 14) (n := 2) rfl (by decide)
  have h3 := contByte_eq v (k := 21) (n := 3) rfl (by decide)
  have h4 := firstByte_eq v
  have hsigned : -2 ^ 26 ≤ v.toInt32.toInt → encodedInt v = v.toInt32.toInt :=
    fun h => if_neg (by omega)
  simp only [encodeInt]
  split_ifs with hf4 hf3 hf2 hf1
  · refine ⟨0, by decide, ?_, ?_⟩
    · rw [hsigned (by omega), hlast]
      rfl
    · rw [hsigned (by omega), Vlq.InRange]
      omega
  · refine ⟨1, by decide, ?_, ?_⟩
    · rw [hsigned (by omega), hlast, h1, contByte_toInt32 v (by decide)]
      rfl
    · rw [hsigned (by omega), Vlq.InRange]
      omega
  · refine ⟨2, by decide, ?_, ?_⟩
    · rw [hsigned (by omega), hlast, h1, h2, contByte_toInt32 v (by decide),
        contByte_toInt32 v (by decide)]
      rfl
    · rw [hsigned (by omega), Vlq.InRange]
      omega
  · refine ⟨3, by decide, ?_, ?_⟩
    · rw [hsigned (by omega), hlast, h1, h2, h3, contByte_toInt32 v (by decide),
        contByte_toInt32 v (by decide), contByte_toInt32 v (by decide)]
      rfl
    · rw [hsigned (by omega), Vlq.InRange]
      omega
  · -- all five bytes: here the digits are those of the unsigned number
    have hwide : encodedInt v = v.toNat := by
      rw [encodedInt]
      split at hv <;> split <;> omega
    refine ⟨4, by decide, ?_, ?_⟩
    · rw [hwide, lastByte_eq, h1, h2, h3, h4]
      rfl
    · rw [hwide, Vlq.InRange]
      omega

theorem encodedInt_emod (v : UInt32) : encodedInt v % 2 ^ 32 = v.toNat := by
  have hlt := v.toNat_lt
  have hv := toInt32_toInt v
  rw [encodedInt]
  split at hv <;> split <;> omega

/-- The signed number is the one that is written, unless it is one of the large negative
ones. -/
theorem encodedInt_eq_toInt (v : UInt32) :
    encodedInt v = v.toInt32.toInt ↔ -2 ^ 26 ≤ v.toInt32.toInt := by
  have hlt := v.toNat_lt
  have hv := toInt32_toInt v
  rw [encodedInt]
  split at hv <;> split <;> omega

theorem encodeInt_length_le (v : UInt32) : (encodeInt v).length ≤ 5 := by
  obtain ⟨n, hn, henc, -⟩ := encodeInt_eq v
  rw [henc, Vlq.length_write]
  omega

theorem encodeInt_length_le_three {v : UInt32} (hlo : -2 ^ 15 ≤ v.toInt32.toInt)
    (hhi : v.toInt32.toInt < 2 ^ 16) : (encodeInt v).length ≤ 3 := by
  simp only [encodeInt]
  split_ifs <;> simp only [List.length_cons, List.length_nil] <;> omega

theorem encodeInt_length_le_two {v : UInt32} (hlo : 0 ≤ v.toInt32.toInt)
    (hhi : v.toInt32.toInt < 2 ^ 8) : (encodeInt v).length ≤ 2 := by
  simp only [encodeInt]
  split_ifs <;> simp only [List.length_cons, List.length_nil] <;> omega

/-- The block around a payload: `command_add_frame`, and the header and trailer that
`build_and_send_command` fills. -/
def frame (msgseq : UInt8) (payload : Bytes) : Bytes :=
  let msglen := UInt8.ofNat (messageHeaderSize + payload.length + messageTrailerSize)
  let covered := msglen :: msgseq :: payload
  let crc := crc16Ccitt covered
  covered ++ [(crc >>> 8).toUInt8, crc.toUInt8, messageSync]

theorem length_frame (msgseq : UInt8) (payload : Bytes) :
    (frame msgseq payload).length = messageHeaderSize + payload.length + messageTrailerSize := by
  simp [frame, messageHeaderSize, messageTrailerSize]
  omega

theorem crc_bytes (crc : UInt16) :
    ((crc >>> 8).toUInt8.toUInt16 <<< 8) ||| crc.toUInt8.toUInt16 = crc := by
  have hlt := crc.toNat_lt
  have hshift : (8 : UInt16).toNat % 16 = 8 := rfl
  apply UInt16.toNat_inj.mp
  rw [UInt16.toNat_or, UInt16.toNat_shiftLeft, hshift, UInt8.toNat_toUInt16, UInt8.toNat_toUInt16,
    UInt16.toNat_toUInt8, UInt16.toNat_toUInt8, UInt16.toNat_shiftRight, hshift,
    Nat.shiftRight_eq_div_pow, Nat.shiftLeft_eq]
  have hhigh : crc.toNat / 2 ^ 8 % 2 ^ 8 * 2 ^ 8 % 2 ^ 16 = 2 ^ 8 * (crc.toNat / 2 ^ 8) := by
    omega
  rw [hhigh, ← Nat.two_pow_add_eq_or_of_lt (by omega)]
  omega

/-- A frame is a block, whatever follows it: both receivers find it. -/
theorem front_frame {msgseq : UInt8} {payload : Bytes}
    (hseq : msgseq &&& ~~~messageSeqMask = messageDest)
    (hlen : payload.length ≤ messagePayloadMax) (rest : Bytes) :
    front (frame msgseq payload ++ rest) = .block (frame msgseq payload).length := by
  have hlength := length_frame msgseq payload
  have hbound : payload.length ≤ 59 := hlen
  have hmsglen : (byteAt (frame msgseq payload) messagePosLen).toNat =
      (frame msgseq payload).length := by
    rw [hlength]
    simp only [frame, byteAt, messagePosLen, messageHeaderSize, messageTrailerSize,
      List.cons_append, List.getD_cons_zero, UInt8.toNat_ofNat']
    omega
  have hsync : byteAt (frame msgseq payload)
      ((frame msgseq payload).length - messageTrailerSync) = messageSync := by
    simp [frame, byteAt, messageTrailerSync]
  have htake : (frame msgseq payload).take ((frame msgseq payload).length - messageTrailerSize) =
      UInt8.ofNat (messageHeaderSize + payload.length + messageTrailerSize) ::
        msgseq :: payload := by
    simp [frame, messageTrailerSize]
  have hcrc : msgCrc (frame msgseq payload) (frame msgseq payload).length =
      crc16Ccitt (UInt8.ofNat (messageHeaderSize + payload.length + messageTrailerSize) ::
        msgseq :: payload) := by
    refine Eq.trans ?_ (crc_bytes _)
    simp [frame, msgCrc, byteAt, messageTrailerCrc]
  have hfront : front (frame msgseq payload) = .block (frame msgseq payload).length := by
    have hpos : byteAt (frame msgseq payload) messagePosSeq = msgseq := rfl
    have hmin : ¬(frame msgseq payload).length < messageMin := by
      rw [hlength]
      unfold messageHeaderSize messageTrailerSize messageMin
      omega
    have hmax : ¬messageMax < (frame msgseq payload).length := by
      rw [hlength]
      unfold messageHeaderSize messageTrailerSize messageMax
      omega
    simp [front, hmsglen, hsync, htake, hcrc, hpos, hmin, hmax, hseq]
  rw [front_append (by simp [hfront]), hfront]

end FlsunT1.Wire
