/-
  Klippy/TmcUart.lean --- the messages of a TMC uart (klippy/extras/tmc_uart.py).

  A byte travels as ten bits: a start bit, the byte with its lowest bit first, a stop bit.
-/
import Mathlib.Data.Nat.Bitwise
import FlsunT1.Library.Bytes
import FlsunT1.Library.Crc

set_option autoImplicit false

namespace FlsunT1.Klippy.TmcUart

open Library

/-! ## The messages -/

/-- One round of the inner loop of `_calc_crc8`. -/
def crcRound (state : ℕ × ℕ) : ℕ × ℕ :=
  let (crc, b) := state
  let crc := if (crc >>> 7) ^^^ (b &&& 1) ≠ 0 then (crc <<< 1) ^^^ 0x07 else crc <<< 1
  (crc &&& 0xff, b >>> 1)

/-- `_calc_crc8` -/
def calcCrc8 (data : List UInt8) : ℕ :=
  data.foldl (fun crc b => (crcRound^[8] (crc, b.toNat)).1) 0

/-- The loop of `_add_serial_bits`: `out` and `pos`. -/
def serialBits (data : List UInt8) : ℕ × ℕ :=
  data.foldl (fun (out, pos) d =>
    let b := (d.toNat <<< 1) ||| 0x200
    (out ||| (b <<< pos), pos + 10)) (0, 0)

/-- `_add_serial_bits` -/
def addSerialBits (data : List UInt8) : List UInt8 :=
  let (out, pos) := serialBits data
  (List.range ((pos + 7) / 8)).map fun i => UInt8.ofNat ((out >>> (i * 8)) &&& 0xff)

/-- The bytes of `_encode_write` before their checksum. -/
def writeBytes (sync addr reg : UInt8) (val : ℕ) : List UInt8 :=
  [sync, addr, reg, UInt8.ofNat ((val >>> 24) &&& 0xff), UInt8.ofNat ((val >>> 16) &&& 0xff),
    UInt8.ofNat ((val >>> 8) &&& 0xff), UInt8.ofNat (val &&& 0xff)]

/-- `_encode_write` -/
def encodeWrite (sync addr reg : UInt8) (val : ℕ) : List UInt8 :=
  let msg := writeBytes sync addr reg val
  addSerialBits (msg ++ [UInt8.ofNat (calcCrc8 msg)])

/-- The data as one number, the loop of `_decode_read`. -/
def messageValue (data : List UInt8) : ℕ :=
  (data.foldl (fun (mval, pos) d => (mval ||| (d.toNat <<< pos), pos + 8)) (0, 0)).1

/-- `_decode_read` -/
def decodeRead (reg : UInt8) (data : List UInt8) : Option ℕ :=
  if data.length ≠ 10 then none
  else
    let mval := messageValue data
    let val := (((mval >>> 31) &&& 0xff) <<< 24) ||| (((mval >>> 41) &&& 0xff) <<< 16) |||
      (((mval >>> 51) &&& 0xff) <<< 8) ||| ((mval >>> 61) &&& 0xff)
    if data ≠ encodeWrite 0x05 0xff reg val then none else some val

/-! ## Bits -/

/-- A bit of a message, as it is sent. -/
def bitAt (data : List UInt8) (n : ℕ) : Bool := (data.getD (n / 8) 0).toNat.testBit (n % 8)

/-- The bits of a byte, the lowest first. -/
def byteBits (b : UInt8) : List Bool := (List.range 8).map b.toNat.testBit

/-! ## The checksum -/

theorem crcRound_bit : ∀ (crc : BitVec 8) (bit : Bool),
    (if (crc.toNat >>> 7) ^^^ bit.toNat ≠ 0 then (crc.toNat <<< 1) ^^^ 0x07 else crc.toNat <<< 1) &&&
      0xff = (crcBit 0x07#8 crc bit).toNat := by
  decide +kernel

theorem crcRound_eq (crc : BitVec 8) (b : ℕ) :
    crcRound (crc.toNat, b) = ((crcBit 0x07#8 crc (b.testBit 0)).toNat, b >>> 1) := by
  have hbit : b &&& 1 = (b.testBit 0).toNat := by
    rw [Nat.and_one_is_mod, Nat.testBit_zero]
    rcases Nat.mod_two_eq_zero_or_one b with h | h <;> simp [h]
  unfold crcRound
  dsimp only
  rw [hbit, crcRound_bit]

theorem crcRound_iterate (crc : BitVec 8) (b n : ℕ) :
    crcRound^[n] (crc.toNat, b) =
      ((crcBits 0x07#8 ((List.range n).map b.testBit) crc).toNat, b >>> n) := by
  induction n with
  | zero => rfl
  | succ n ih =>
    rw [Function.iterate_succ_apply', ih, crcRound_eq, Nat.testBit_shiftRight, Nat.add_zero,
      List.range_succ, List.map_append, crcBits_append, ← Nat.shiftRight_add]
    rfl

theorem calcCrc8_eq (data : List UInt8) :
    calcCrc8 data = (crcBits 0x07#8 (data.flatMap byteBits) 0#8).toNat := by
  have h (crc : BitVec 8) :
      data.foldl (fun crc b => (crcRound^[8] (crc, b.toNat)).1) crc.toNat =
        (crcBits 0x07#8 (data.flatMap byteBits) crc).toNat := by
    induction data generalizing crc with
    | nil => rfl
    | cons b data ih =>
      rw [List.foldl_cons, crcRound_iterate, ih, List.flatMap_cons, crcBits_append]
      rfl
  exact h 0#8

theorem byteBits_injective {b b' : UInt8} (h : byteBits b = byteBits b') : b = b' := by
  apply UInt8.toNat_inj.mp
  apply Nat.eq_of_testBit_eq
  intro i
  rcases Nat.lt_or_ge i 8 with hi | hi
  · exact List.map_inj_left.mp h i (List.mem_range.mpr hi)
  · have hlarge (x : UInt8) : x.toNat.testBit i = false :=
      Nat.testBit_lt_two_pow (x.toNat_lt.trans_le (Nat.pow_le_pow_right (by decide) hi))
    rw [hlarge, hlarge]

theorem calcCrc8_injective (before after : List UInt8) {b b' : UInt8}
    (h : calcCrc8 (before ++ b :: after) = calcCrc8 (before ++ b' :: after)) : b = b' := by
  have hsplit (x : UInt8) : crcBits 0x07#8 ((before ++ x :: after).flatMap byteBits) 0#8 =
      crcBits 0x07#8 (byteBits x ++ after.flatMap byteBits)
        (crcBits 0x07#8 (before.flatMap byteBits) 0#8) := by
    rw [List.flatMap_append, List.flatMap_cons, crcBits_append]
  rw [calcCrc8_eq, calcCrc8_eq, hsplit, hsplit] at h
  have hbits := BitVec.eq_of_toNat_eq h
  have hpoly : (0x07#8).getLsbD 0 = true := by decide
  have hlength (x : UInt8) : (byteBits x).length = 8 := by
    rw [byteBits, List.length_map, List.length_range]
  refine byteBits_injective (crcBits_burst hpoly _ (by decide) ?_ (hlength b).le hbits)
  rw [hlength, hlength]

/-! ## Numbers put together from bits -/

/-- Numbers of `k` bits each, joined. -/
theorem testBit_joined {α : Type} {k : ℕ} (hk : 0 < k) {f : α → ℕ} (hf : ∀ a, f a < 2 ^ k)
    (data : List α) (out pos n : ℕ) :
    (data.foldl (fun (out, pos) a => (out ||| (f a <<< pos), pos + k)) (out, pos)).1.testBit n =
      (out.testBit n || (decide (pos ≤ n) &&
        ((data.map f).getD ((n - pos) / k) 0).testBit ((n - pos) % k))) := by
  induction data generalizing out pos with
  | nil => simp
  | cons a data ih =>
    rw [List.foldl_cons, ih, Nat.testBit_or, Nat.testBit_shiftLeft, List.map_cons, Bool.or_assoc]
    congr 1
    rcases Nat.lt_or_ge n pos with hlt | hge
    · simp [Nat.not_le.mpr hlt, show ¬ pos + k ≤ n by omega]
    · rcases Nat.lt_or_ge n (pos + k) with hfirst | hlater
      · have hdiv : (n - pos) / k = 0 := Nat.div_eq_of_lt (by omega)
        have hmod : (n - pos) % k = n - pos := Nat.mod_eq_of_lt (by omega)
        simp [hge, Nat.not_le.mpr hfirst, hdiv, hmod]
      · obtain ⟨m, rfl⟩ := Nat.exists_eq_add_of_le hlater
        have hbit : (f a).testBit (pos + k + m - pos) = false :=
          Nat.testBit_lt_two_pow ((hf a).trans_le (Nat.pow_le_pow_right (by decide) (by omega)))
        have hdiv : (pos + k + m - pos) / k = m / k + 1 := by
          rw [show pos + k + m - pos = m + k by omega, Nat.add_div_right _ hk]
        have hmod : (pos + k + m - pos) % k = m % k := by
          rw [show pos + k + m - pos = m + k by omega, Nat.add_mod_right]
        simp [hge, hlater, hbit, hdiv, hmod, show pos + k + m - (pos + k) = m by omega]

/-- The ten bits of a byte. -/
def frame (d : UInt8) : ℕ := (d.toNat <<< 1) ||| 0x200

theorem frame_lt (d : UInt8) : frame d < 2 ^ 10 := by
  have hd := d.toNat_lt
  apply Nat.or_lt_two_pow
  · rw [Nat.shiftLeft_eq]
    omega
  · decide

theorem testBit_frame (d : UInt8) {i : ℕ} (hi : i < 8) :
    (frame d).testBit (i + 1) = d.toNat.testBit i := by
  have hstop : (0x200 : ℕ).testBit (i + 1) = false := by
    rw [show (0x200 : ℕ) = 2 ^ 9 by rfl, Nat.testBit_two_pow]
    exact decide_eq_false (by omega)
  rw [frame, Nat.testBit_or, Nat.testBit_shiftLeft, hstop, Bool.or_false]
  simp

theorem serialBits_testBit (data : List UInt8) (n : ℕ) :
    (serialBits data).1.testBit n = ((data.map frame).getD (n / 10) 0).testBit (n % 10) := by
  refine (testBit_joined (by decide) frame_lt data 0 0 n).trans ?_
  simp

theorem serialBits_pos (data : List UInt8) : (serialBits data).2 = 10 * data.length := by
  have h (out pos : ℕ) : (data.foldl (fun (out, pos) d =>
      (out ||| (frame d <<< pos), pos + 10)) (out, pos)).2 = pos + 10 * data.length := by
    induction data generalizing out pos with
    | nil => rfl
    | cons d data ih =>
      rw [List.foldl_cons, ih, List.length_cons]
      omega
  exact (h 0 0).trans (Nat.zero_add _)

theorem messageValue_testBit (data : List UInt8) (n : ℕ) :
    (messageValue data).testBit n = bitAt data n := by
  refine (testBit_joined (by decide) (fun d => d.toNat_lt) data 0 0 n).trans ?_
  rw [bitAt, List.getD_eq_getElem?_getD, List.getD_eq_getElem?_getD, List.getElem?_map]
  cases data[n / 8]? <;> simp

/-! ## What is read back -/

theorem addSerialBits_length (data : List UInt8) :
    (addSerialBits data).length = (10 * data.length + 7) / 8 := by
  rw [addSerialBits, List.length_map, List.length_range, serialBits_pos]

theorem bitAt_addSerialBits {data : List UInt8} (hlength : data.length = 8) (n : ℕ) :
    bitAt (addSerialBits data) n = ((data.map frame).getD (n / 10) 0).testBit (n % 10) := by
  rw [← serialBits_testBit, bitAt, List.getD_eq_getElem?_getD]
  have hbytes : addSerialBits data = (List.range (((serialBits data).2 + 7) / 8)).map
      fun i => UInt8.ofNat (((serialBits data).1 >>> (i * 8)) &&& 0xff) := rfl
  rw [hbytes, serialBits_pos, hlength]
  rcases Nat.lt_or_ge n 80 with hn | hn
  · rw [List.getElem?_map, List.getElem?_range (by omega), Option.map_some, Option.getD_some,
      UInt8.toNat_ofNat', Nat.mod_eq_of_lt (Nat.and_lt_two_pow _ (by decide)), Nat.testBit_and,
      Nat.testBit_shiftRight, show (0xff : ℕ) = 2 ^ 8 - 1 by rfl, Nat.testBit_two_pow_sub_one,
      decide_eq_true (Nat.mod_lt n (by decide)), Bool.and_true,
      show n / 8 * 8 + n % 8 = n by omega]
  · have hnone : (data.map frame).getD (n / 10) 0 = 0 := by
      rw [List.getD_eq_default]
      rw [List.length_map, hlength]
      omega
    rw [serialBits_testBit, hnone, List.getElem?_eq_none (by simp; omega)]
    simp

theorem byte_of_frames {mval : ℕ} {data : List UInt8}
    (h : ∀ n, mval.testBit n = ((data.map frame).getD (n / 10) 0).testBit (n % 10)) {k : ℕ}
    (hk : k < data.length) : (mval >>> (10 * k + 1)) &&& 0xff = data[k].toNat := by
  apply Nat.eq_of_testBit_eq
  intro i
  rw [Nat.testBit_and, Nat.testBit_shiftRight, show (0xff : ℕ) = 2 ^ 8 - 1 by rfl,
    Nat.testBit_two_pow_sub_one]
  rcases Nat.lt_or_ge i 8 with hi | hi
  · rw [h, show (10 * k + 1 + i) / 10 = k by omega, show (10 * k + 1 + i) % 10 = i + 1 by omega,
      List.getD_eq_getElem?_getD, List.getElem?_map, List.getElem?_eq_getElem hk]
    simp [testBit_frame _ hi, hi]
  · have hlarge : data[k].toNat.testBit i = false :=
      Nat.testBit_lt_two_pow (data[k].toNat_lt.trans_le (Nat.pow_le_pow_right (by decide) hi))
    rw [hlarge]
    simp [Nat.not_lt.mpr hi]

/-- A value of 32 bits is put together again. -/
theorem value_of_bytes {val : ℕ} (h : val < 2 ^ 32) :
    (((val >>> 24) &&& 0xff) <<< 24) ||| (((val >>> 16) &&& 0xff) <<< 16) |||
      (((val >>> 8) &&& 0xff) <<< 8) ||| (val &&& 0xff) = val := by
  apply Nat.eq_of_testBit_eq
  intro i
  simp only [Nat.testBit_or, Nat.testBit_shiftLeft, Nat.testBit_and, Nat.testBit_shiftRight,
    show (0xff : ℕ) = 2 ^ 8 - 1 by rfl, Nat.testBit_two_pow_sub_one]
  rcases Nat.lt_or_ge i 32 with hi | hi
  · rcases Nat.lt_or_ge i 8 with h8 | h8
    · simp [h8, show ¬ 8 ≤ i by omega, show ¬ 16 ≤ i by omega, show ¬ 24 ≤ i by omega]
    · rcases Nat.lt_or_ge i 16 with h16 | h16
      · simp [h8, show ¬ 16 ≤ i by omega, show ¬ 24 ≤ i by omega, show ¬ i < 8 by omega,
          show i - 8 < 8 by omega]
      · rcases Nat.lt_or_ge i 24 with h24 | h24
        · simp [h8, h16, show ¬ 24 ≤ i by omega, show ¬ i < 8 by omega,
            show ¬ i - 8 < 8 by omega, show i - 16 < 8 by omega]
        · simp [h24, show ¬ i < 8 by omega, show ¬ i - 8 < 8 by omega,
            show ¬ i - 16 < 8 by omega, show i - 24 < 8 by omega]
  · have hlarge : val.testBit i = false :=
      Nat.testBit_lt_two_pow (h.trans_le (Nat.pow_le_pow_right (by decide) hi))
    simp [hlarge, show ¬ i < 8 by omega, show ¬ i - 8 < 8 by omega, show ¬ i - 16 < 8 by omega,
      show ¬ i - 24 < 8 by omega]

/-- The bytes of a message with its checksum. -/
def messageBytes (reg : UInt8) (val : ℕ) : List UInt8 :=
  writeBytes 0x05 0xff reg val ++ [UInt8.ofNat (calcCrc8 (writeBytes 0x05 0xff reg val))]

theorem messageBytes_length (reg : UInt8) (val : ℕ) : (messageBytes reg val).length = 8 := rfl

theorem bitAt_encodeWrite (reg : UInt8) (val n : ℕ) :
    bitAt (encodeWrite 0x05 0xff reg val) n =
      (((messageBytes reg val).map frame).getD (n / 10) 0).testBit (n % 10) :=
  bitAt_addSerialBits (messageBytes_length reg val) n

theorem encodeWrite_length (reg : UInt8) (val : ℕ) :
    (encodeWrite 0x05 0xff reg val).length = 10 := by
  apply (addSerialBits_length (messageBytes reg val)).trans
  rw [messageBytes_length]

theorem decodeRead_encodeWrite (reg : UInt8) {val : ℕ} (h : val < 2 ^ 32) :
    decodeRead reg (encodeWrite 0x05 0xff reg val) = some val := by
  have hbits (n : ℕ) : (messageValue (encodeWrite 0x05 0xff reg val)).testBit n =
      (((messageBytes reg val).map frame).getD (n / 10) 0).testBit (n % 10) := by
    rw [messageValue_testBit, bitAt_encodeWrite]
  have hbyte (x : ℕ) : (UInt8.ofNat (x &&& 0xff)).toNat = x &&& 0xff := by
    rw [UInt8.toNat_ofNat', Nat.mod_eq_of_lt (Nat.and_lt_two_pow _ (by decide))]
  have hlt (k : ℕ) (hk : k < 8) : k < (messageBytes reg val).length := hk
  have h3 := (byte_of_frames hbits (hlt 3 (by decide))).trans (hbyte (val >>> 24))
  have h4 := (byte_of_frames hbits (hlt 4 (by decide))).trans (hbyte (val >>> 16))
  have h5 := (byte_of_frames hbits (hlt 5 (by decide))).trans (hbyte (val >>> 8))
  have h6 := (byte_of_frames hbits (hlt 6 (by decide))).trans (hbyte val)
  unfold decodeRead
  rw [if_neg (not_not.mpr (encodeWrite_length reg val))]
  dsimp only at h3 h4 h5 h6 ⊢
  rw [h3, h4, h5, h6, value_of_bytes h, if_neg (not_not.mpr rfl)]

/-- A response that is accepted is the encoding of its value. -/
theorem eq_encodeWrite_of_decodeRead {reg : UInt8} {data : List UInt8} {val : ℕ}
    (h : decodeRead reg data = some val) :
    data = encodeWrite 0x05 0xff reg val ∧ val < 2 ^ 32 := by
  unfold decodeRead at h
  split at h
  · cases h
  · dsimp only at h
    split at h
    · cases h
    · rename_i heq
      obtain rfl := Option.some.inj h
      refine ⟨not_not.mp heq, ?_⟩
      have hshift (x : ℕ) {i : ℕ} (hi : i ≤ 24) : ((x &&& 0xff) <<< i) < 2 ^ 32 := by
        have hx : x &&& 0xff < 2 ^ 8 := Nat.and_lt_two_pow _ (by decide)
        calc ((x &&& 0xff) <<< i) < 2 ^ 8 <<< i := by
              rw [Nat.shiftLeft_eq, Nat.shiftLeft_eq]
              exact Nat.mul_lt_mul_of_pos_right hx (Nat.two_pow_pos i)
          _ = 2 ^ (8 + i) := by rw [Nat.shiftLeft_eq, Nat.pow_add]
          _ ≤ 2 ^ 32 := Nat.pow_le_pow_right (by decide) (by omega)
      apply Nat.or_lt_two_pow
      · apply Nat.or_lt_two_pow
        · exact Nat.or_lt_two_pow (hshift _ le_rfl) (hshift _ (by decide))
        · exact hshift _ (by decide)
      · exact hshift _ (Nat.zero_le _)

/-! ## Errors -/

theorem exists_split {α : Type} {a b : List α} {k : ℕ} (hlength : a.length = b.length)
    (h : ∀ j, j ≠ k → a[j]? = b[j]?) (hk : k < a.length) :
    ∃ before after x y, a = before ++ x :: after ∧ b = before ++ y :: after := by
  have hkb : k < b.length := hlength ▸ hk
  have hbefore : b.take k = a.take k := by
    apply List.ext_getElem?
    intro i
    rw [List.getElem?_take, List.getElem?_take]
    rcases Nat.lt_or_ge i k with hi | hi
    · rw [if_pos hi, if_pos hi, h i hi.ne]
    · rw [if_neg (Nat.not_lt.mpr hi), if_neg (Nat.not_lt.mpr hi)]
  have hafter : b.drop (k + 1) = a.drop (k + 1) := by
    apply List.ext_getElem?
    intro i
    rw [List.getElem?_drop, List.getElem?_drop, h _ (by omega)]
  refine ⟨a.take k, a.drop (k + 1), a[k], b[k], ?_, ?_⟩
  · rw [← List.drop_eq_getElem_cons hk, List.take_append_drop]
  · rw [← hbefore, ← hafter, ← List.drop_eq_getElem_cons hkb, List.take_append_drop]

/-- Two messages whose bits differ only in one frame are the same. -/
theorem eq_of_one_frame {reg : UInt8} {val val' : ℕ} (k : ℕ)
    (h : ∀ n, n / 10 ≠ k → bitAt (encodeWrite 0x05 0xff reg val) n =
      bitAt (encodeWrite 0x05 0xff reg val') n) :
    encodeWrite 0x05 0xff reg val = encodeWrite 0x05 0xff reg val' := by
  have hbytes (j : ℕ) (hne : j ≠ k) : (messageBytes reg val)[j]? = (messageBytes reg val')[j]? := by
    rcases Nat.lt_or_ge j 8 with hj | hj
    · have hlt (v : ℕ) : j < (messageBytes reg v).length := hj
      rw [List.getElem?_eq_getElem (hlt _), List.getElem?_eq_getElem (hlt _)]
      congr 1
      apply UInt8.toNat_inj.mp
      rw [← byte_of_frames (serialBits_testBit _) (hlt val),
        ← byte_of_frames (serialBits_testBit _) (hlt val')]
      apply Nat.eq_of_testBit_eq
      intro i
      rw [Nat.testBit_and, Nat.testBit_and, Nat.testBit_shiftRight, Nat.testBit_shiftRight,
        serialBits_testBit, serialBits_testBit, ← bitAt_encodeWrite, ← bitAt_encodeWrite]
      rcases Nat.lt_or_ge i 8 with hi | hi
      · rw [h _ (by omega)]
      · rw [Nat.testBit_lt_two_pow (show 0xff < 2 ^ i from
          (show 0xff < 2 ^ 8 by decide).trans_le (Nat.pow_le_pow_right (by decide) hi)),
          Bool.and_false, Bool.and_false]
    · rw [List.getElem?_eq_none hj, List.getElem?_eq_none hj]
  have hwrite (v j : ℕ) (hj : j < 7) :
      (messageBytes reg v)[j]? = (writeBytes 0x05 0xff reg v)[j]? :=
    List.getElem?_append_left hj
  have hmsg : writeBytes 0x05 0xff reg val = writeBytes 0x05 0xff reg val' := by
    rcases Nat.lt_or_ge k 7 with hk | hk
    · -- the checksum byte is the same, so the byte that may differ is too
      have hcrc (v : ℕ) : (messageBytes reg v)[7]? =
          some (UInt8.ofNat (calcCrc8 (writeBytes 0x05 0xff reg v))) := rfl
      have hsame := hbytes 7 (by omega)
      rw [hcrc, hcrc] at hsame
      have hlt (data : List UInt8) : calcCrc8 data < 2 ^ 8 := by
        rw [calcCrc8_eq]
        exact BitVec.isLt _
      have heq := congrArg UInt8.toNat (Option.some.inj hsame)
      rw [UInt8.toNat_ofNat', UInt8.toNat_ofNat', Nat.mod_eq_of_lt (hlt _),
        Nat.mod_eq_of_lt (hlt _)] at heq
      obtain ⟨before, after, x, y, ha, hb⟩ :=
        exists_split (a := writeBytes 0x05 0xff reg val) (b := writeBytes 0x05 0xff reg val') rfl
          (fun j hj => by
            rcases Nat.lt_or_ge j 7 with hj7 | hj7
            · rw [← hwrite _ j hj7, ← hwrite _ j hj7, hbytes j hj]
            · rw [List.getElem?_eq_none hj7, List.getElem?_eq_none hj7]) hk
      rw [ha, hb] at heq ⊢
      rw [calcCrc8_injective before after heq]
    · apply List.ext_getElem?
      intro j
      rcases Nat.lt_or_ge j 7 with hj | hj
      · rw [← hwrite _ j hj, ← hwrite _ j hj, hbytes j (by omega)]
      · rw [List.getElem?_eq_none hj, List.getElem?_eq_none hj]
  unfold encodeWrite
  rw [hmsg]

theorem decodeRead_of_one_frame {reg : UInt8} {data data' : List UInt8} {val : ℕ} (k : ℕ)
    (hvalid : decodeRead reg data = some val) (hne : data' ≠ data)
    (h : ∀ n, n / 10 ≠ k → bitAt data' n = bitAt data n) : decodeRead reg data' = none := by
  cases hread : decodeRead reg data' with
  | none => rfl
  | some val' =>
    obtain ⟨rfl, -⟩ := eq_encodeWrite_of_decodeRead hvalid
    obtain ⟨rfl, -⟩ := eq_encodeWrite_of_decodeRead hread
    exact absurd (eq_of_one_frame k h) hne

/-- What is written is read back, only encodings are accepted, and an error in one bit or in
the data of one byte is found. -/
theorem decodeRead_exact (reg : UInt8) :
    (∀ val < 2 ^ 32, decodeRead reg (encodeWrite 0x05 0xff reg val) = some val) ∧
      (∀ data val, decodeRead reg data = some val →
        data = encodeWrite 0x05 0xff reg val ∧ val < 2 ^ 32) ∧
      (∀ data, data.length ≠ 10 → decodeRead reg data = none) ∧
      ∀ data val data', decodeRead reg data = some val → data' ≠ data →
        ((∃ bit, ∀ n, n ≠ bit → bitAt data' n = bitAt data n) →
          decodeRead reg data' = none) ∧
        ((∃ k, ∀ n, ¬ (10 * k + 1 ≤ n ∧ n ≤ 10 * k + 8) → bitAt data' n = bitAt data n) →
          decodeRead reg data' = none) := by
  refine ⟨fun val hval => decodeRead_encodeWrite reg hval,
    fun data val h => eq_encodeWrite_of_decodeRead h, fun data hlength => if_pos hlength, ?_⟩
  intro data val data' hvalid hne
  constructor
  · rintro ⟨bit, h⟩
    refine decodeRead_of_one_frame (bit / 10) hvalid hne fun n hn => h n ?_
    rintro rfl
    exact hn rfl
  · rintro ⟨k, h⟩
    exact decodeRead_of_one_frame k hvalid hne fun n hn => h n (by omega)

theorem decodeRead_exact_flipped :
    decodeRead 0x10 (encodeWrite 0x05 0xff 0x10 0x00061f0a) = some 0x00061f0a ∧
      decodeRead 0x10 ((encodeWrite 0x05 0xff 0x10 0x00061f0a).set 0 0x1a) = none := by
  obtain ⟨hread, -, -, herror⟩ := decodeRead_exact 0x10
  have hvalid := hread 0x00061f0a (by decide)
  refine ⟨hvalid, (herror _ _ _ hvalid (by decide +kernel)).1 ⟨4, fun n hn => ?_⟩⟩
  rcases Nat.lt_or_ge n 8 with hfirst | hlater
  · have hbits : ∀ n < 8, n ≠ 4 →
        bitAt ((encodeWrite 0x05 0xff 0x10 0x00061f0a).set 0 0x1a) n =
          bitAt (encodeWrite 0x05 0xff 0x10 0x00061f0a) n := by
      decide +kernel
    exact hbits n hfirst hn
  · rw [bitAt, bitAt, List.getD_eq_getElem?_getD, List.getD_eq_getElem?_getD,
      List.getElem?_set_ne (by omega)]

end FlsunT1.Klippy.TmcUart
