/-
  Wire/Response.lean --- responses from the firmware to the host.

  Source: `command_encodef`, klipper/src/command.c, and `build_parser` of
  klipper/scripts/buildcommands.py, which fills the table entry that it reads; the
  host's side is in Wire/Msgproto.lean.
-/
import FlsunT1.Wire.Msgproto
import Mathlib.Data.List.TakeWhile

set_option autoImplicit false

namespace FlsunT1.Wire

open FlsunT1.Library

/-! ## Encoding -/

/-- `struct command_encoder` -/
structure CommandEncoder where
  msgId : UInt8
  maxSize : Nat
  paramTypes : List ParamType
  deriving DecidableEq, Repr

/-- `build_parser` for a message to be encoded. -/
def buildEncoder (msgid : UInt8) (paramTypes : List ParamType) : CommandEncoder where
  msgId := msgid
  maxSize := min messageMax (messageMin + 1 + (paramTypes.map ParamType.maxLength).sum)
  paramTypes := paramTypes

/-- An argument of `command_sendf`, as `va_arg` takes it: an integer, promoted to 32 bits,
a string up to its first byte 0, or a length with a pointer. -/
inductive VaArg
  | word (v : UInt32)
  | str (s : Bytes)
  | buf (len : UInt32) (s : Bytes)
  deriving DecidableEq, Repr

/-- The `switch` of `command_encodef`: the message with one argument added.  There is no
result when it calls `shutdown("Message encode error")`. -/
def encodefArg (maxend : Nat) (out : Bytes) : ParamType → VaArg → Option Bytes
  | .uint32, .word v | .int32, .word v | .uint16, .word v | .int16, .word v
  | .byte, .word v => some (out ++ encodeInt v)
  | .string, .str s =>
      let s := (s.takeWhile (· ≠ 0)).take (maxend - (out.length + 1))
      some (out ++ UInt8.ofNat s.length :: s)
  | .progmemBuffer, .buf len s | .buffer, .buf len s =>
      let v := if len.toNat > maxend - out.length then maxend - out.length else len.toNat
      some (out ++ UInt8.ofNat v :: s.take v)
  | _, _ => none

/-- The loop of `command_encodef`, with the bytes from `MESSAGE_HEADER_SIZE` on. -/
def encodefLoop (maxend : Nat) (out : Bytes) : List ParamType → List VaArg → Option Bytes
  | [], _ => some out
  | t :: ts, arg :: args =>
      if out.length > maxend then none
      else (encodefArg maxend out t arg).bind fun out => encodefLoop maxend out ts args
  | _ :: _, [] => none

/-- `command_encodef`: encode a message.  The result is the payload of the block; that of
an ack or a nak is empty. -/
def commandEncodef (ce : CommandEncoder) (args : List VaArg) : Option Bytes :=
  if ce.maxSize ≤ messageMin then some []
  else encodefLoop (ce.maxSize - messageMin) [ce.msgId] ce.paramTypes args

/-! ## Values of the C types -/

/-- The C type of an argument.  A string has no byte 0 before its end. -/
def ParamType.CType : ParamType → Type
  | .uint32 => UInt32
  | .int32 => Int32
  | .uint16 => UInt16
  | .int16 => Int16
  | .byte => UInt8
  | .string => { s : Bytes // (0 : UInt8) ∉ s }
  | .progmemBuffer | .buffer => Bytes

/-- The argument as `va_arg` takes it: integers are promoted with their sign. -/
def ParamType.promote : (t : ParamType) → t.CType → VaArg
  | .uint32, v => .word v
  | .int32, v => .word (UInt32.ofInt (Int32.toInt v))
  | .uint16, v => .word (UInt16.toUInt32 v)
  | .int16, v => .word (UInt32.ofInt (Int16.toInt v))
  | .byte, v => .word (UInt8.toUInt32 v)
  | .string, s => .str (Subtype.val s)
  | .progmemBuffer, s | .buffer, s => .buf (UInt32.ofNat (List.length s)) s

/-- The value of an argument for the host. -/
def ParamType.value : (t : ParamType) → t.CType → Value
  | .uint32, v => .int (UInt32.toNat v)
  | .int32, v => .int (Int32.toInt v)
  | .uint16, v => .int (UInt16.toNat v)
  | .int16, v => .int (Int16.toInt v)
  | .byte, v => .int (UInt8.toNat v)
  | .string, s => .bytes (Subtype.val s)
  | .progmemBuffer, s | .buffer, s => .bytes s

/-- A parameter of a response with its value. -/
structure ResponseArg where
  param : Param
  value : param.type.CType

/-- The value that the host is to give for an argument. -/
def ResponseArg.shown (a : ResponseArg) : Value := a.param.present (a.param.type.value a.value)

/-- The bytes of an argument in the payload. -/
def ResponseArg.encoded (a : ResponseArg) : Bytes :=
  match a.param.type.promote a.value with
  | .word v => encodeInt v
  | .str s => UInt8.ofNat s.length :: s
  | .buf _ s => UInt8.ofNat s.length :: s

/-- The response fits in a block. -/
def Fits (args : List ResponseArg) : Prop :=
  1 + (args.map fun a => a.encoded.length).sum ≤ messagePayloadMax

instance (args : List ResponseArg) : Decidable (Fits args) :=
  inferInstanceAs (Decidable (_ ≤ _))

/-! ## What is encoded -/

theorem toInt_ofInt {x : Int} (hlo : -2 ^ 31 ≤ x) (hhi : x < 2 ^ 31) :
    (UInt32.ofInt x).toInt32.toInt = x := by
  rw [toInt32_toInt, UInt32.ofInt, UInt32.toNat_ofNat']
  split <;> omega

theorem toInt_of_lt {v : UInt32} (h : v.toNat < 2 ^ 31) : v.toInt32.toInt = v.toNat := by
  rw [toInt32_toInt, if_pos h]

theorem toInt_promote_int16 (v : Int16) : (UInt32.ofInt v.toInt).toInt32.toInt = v.toInt := by
  have hlo := v.le_toInt
  have hhi := v.toInt_lt
  exact toInt_ofInt (by omega) (by omega)

theorem toInt_promote_uint16 (v : UInt16) : v.toUInt32.toInt32.toInt = v.toNat := by
  have hlt := v.toNat_lt
  have hnat := UInt16.toNat_toUInt32 v
  rw [toInt_of_lt (by omega), hnat]

theorem toInt_promote_byte (v : UInt8) : v.toUInt32.toInt32.toInt = v.toNat := by
  have hlt := v.toNat_lt
  have hnat := UInt8.toNat_toUInt32 v
  rw [toInt_of_lt (by omega), hnat]

/-- An argument that fits is written as it is. -/
theorem encodefArg_eq {a : ResponseArg} {maxend : Nat} {out : Bytes}
    (h : out.length + a.encoded.length ≤ maxend) (hmax : maxend < 2 ^ 8) :
    encodefArg maxend out a.param.type (a.param.type.promote a.value) =
      some (out ++ a.encoded) := by
  obtain ⟨⟨name, type, enums⟩, value⟩ := a
  have hbuf : ∀ s : Bytes, out.length + (s.length + 1) ≤ maxend →
      some (out ++ UInt8.ofNat (if (UInt32.ofNat s.length).toNat > maxend - out.length then
          maxend - out.length else (UInt32.ofNat s.length).toNat) ::
        s.take (if (UInt32.ofNat s.length).toNat > maxend - out.length then
          maxend - out.length else (UInt32.ofNat s.length).toNat)) =
        some (out ++ UInt8.ofNat s.length :: s) := by
    intro s hs
    have hlen : (UInt32.ofNat s.length).toNat = s.length := by
      rw [UInt32.toNat_ofNat']
      omega
    rw [hlen, if_neg (by omega), List.take_length]
  cases type with
  | string =>
    obtain ⟨s, hs⟩ := value
    have hwhile : s.takeWhile (· ≠ 0) = s := by
      rw [List.takeWhile_eq_self_iff]
      intro c hc
      simpa using fun h0 : c = 0 => hs (h0 ▸ hc)
    simp only [ResponseArg.encoded, ParamType.promote, List.length_cons] at h
    simp only [ResponseArg.encoded, ParamType.promote, encodefArg]
    rw [hwhile, List.take_of_length_le (by omega)]
  | progmemBuffer => exact hbuf value h
  | buffer => exact hbuf value h
  | _ => rfl

theorem encodefLoop_eq {args : List ResponseArg} {maxend : Nat} {out : Bytes}
    (h : out.length + (args.map fun a => a.encoded.length).sum ≤ maxend)
    (hmax : maxend < 2 ^ 8) :
    encodefLoop maxend out (args.map fun a => a.param.type)
        (args.map fun a => a.param.type.promote a.value) =
      some (out ++ args.flatMap ResponseArg.encoded) := by
  induction args generalizing out with
  | nil => simp [encodefLoop]
  | cons a args ih =>
    rw [List.map_cons, List.sum_cons] at h
    rw [List.map_cons, List.map_cons, encodefLoop, if_neg (by omega),
      encodefArg_eq (by omega) hmax, Option.bind_some, ih (by rw [List.length_append]; omega)]
    simp

theorem encoded_length_le {a : ResponseArg} (h : a.encoded.length ≤ messagePayloadMax) :
    a.encoded.length ≤ a.param.type.maxLength := by
  obtain ⟨⟨name, type, enums⟩, value⟩ := a
  have hle : messagePayloadMax ≤ 64 := by decide
  cases type with
  | uint32 => exact encodeInt_length_le _
  | int32 => exact encodeInt_length_le _
  | uint16 =>
    have hlt := UInt16.toNat_lt value
    have hv := toInt_promote_uint16 value
    exact encodeInt_length_le_three (v := UInt16.toUInt32 value) (by omega) (by omega)
  | int16 =>
    have hlo := Int16.le_toInt value
    have hhi := Int16.toInt_lt value
    have hv := toInt_promote_int16 value
    exact encodeInt_length_le_three (v := UInt32.ofInt (Int16.toInt value)) (by omega) (by omega)
  | byte =>
    have hlt := UInt8.toNat_lt value
    have hv := toInt_promote_byte value
    exact encodeInt_length_le_two (v := UInt8.toUInt32 value) (by omega) (by omega)
  | _ => exact h.trans hle

/-- The payload that `command_encodef` builds. -/
def responsePayload (msgid : UInt8) (args : List ResponseArg) : Bytes :=
  msgid :: args.flatMap ResponseArg.encoded

/-- A response that fits is encoded as a whole. -/
theorem commandEncodef_eq {args : List ResponseArg} (msgid : UInt8) (h : Fits args) :
    commandEncodef (buildEncoder msgid (args.map fun a => a.param.type))
        (args.map fun a => a.param.type.promote a.value) =
      some (responsePayload msgid args) := by
  have hpayload : messagePayloadMax = 59 := rfl
  have hsum : (args.map fun a => a.encoded.length).sum ≤
      ((args.map fun a => a.param.type).map ParamType.maxLength).sum := by
    rw [List.map_map]
    apply List.sum_le_sum
    intro a ha
    apply encoded_length_le
    have hle := List.single_le_sum (by simp) _ (List.mem_map_of_mem (f := fun a : ResponseArg =>
      a.encoded.length) ha)
    unfold Fits at h
    omega
  unfold Fits at h
  have hmax : (buildEncoder msgid (args.map fun a => a.param.type)).maxSize =
      min 64 (6 + ((args.map fun a => a.param.type).map ParamType.maxLength).sum) := rfl
  have hmin : messageMin = 5 := rfl
  rw [commandEncodef, if_neg (by omega)]
  apply encodefLoop_eq
  · simp only [List.length_singleton]
    omega
  · omega

/-! ## What is read -/

/-- What the host reads for an argument, before the name of an enumeration is taken. -/
def ResponseArg.decoded (a : ResponseArg) : Value :=
  match a.param.type.promote a.value with
  | .word v => .int (if a.param.type.signed then encodedInt v else v.toNat)
  | .str s => .bytes s
  | .buf _ s => .bytes s

theorem parseUint32_encodeInt {v : UInt32} {s rest : Bytes} {pos : Nat} (signed : Bool)
    (hs : s.drop pos = encodeInt v ++ rest) :
    parseUint32 signed s pos =
      some (if signed then encodedInt v else v.toNat, pos + (encodeInt v).length) := by
  obtain ⟨n, -, henc, hrange⟩ := encodeInt_eq v
  obtain ⟨pos', heq, hlen⟩ := parseUint32_eq signed (henc ▸ hs) (Vlq.read_write hrange rest)
  have hemod := encodedInt_emod v
  rw [List.length_append, ← henc] at hlen
  rw [heq, show pos' = pos + (encodeInt v).length by omega,
    show (0x100000000 : Int) = 2 ^ 32 from rfl, hemod]

theorem parseString_encoded {b s rest : Bytes} {pos : Nat} (hlen : b.length < 2 ^ 8)
    (hs : s.drop pos = UInt8.ofNat b.length :: b ++ rest) :
    parseString s pos = some (b, pos + (b.length + 1)) := by
  have hnat : (UInt8.ofNat b.length).toNat = b.length := by
    rw [UInt8.toNat_ofNat']
    omega
  rw [parseString, hs]
  simp [hnat]
  omega

/-- An argument is read from where it was written. -/
theorem parse_arg {a : ResponseArg} {s rest : Bytes} {pos : Nat}
    (h : a.encoded.length ≤ messagePayloadMax) (hs : s.drop pos = a.encoded ++ rest) :
    a.param.parse s pos = some (a.param.present a.decoded, pos + a.encoded.length) := by
  obtain ⟨⟨name, type, enums⟩, value⟩ := a
  have hint : ∀ (signed : Bool) (v : UInt32), s.drop pos = encodeInt v ++ rest →
      ((parseUint32 signed s pos).map fun r => (Value.int r.1, r.2)) =
        some (.int (if signed then encodedInt v else v.toNat), pos + (encodeInt v).length) := by
    intro signed v hv
    rw [parseUint32_encodeInt signed hv, Option.map_some]
  have hbytes : ∀ b : Bytes, b.length + 1 ≤ messagePayloadMax →
      s.drop pos = UInt8.ofNat b.length :: b ++ rest →
      ((parseString s pos).map fun r => (Value.bytes r.1, r.2)) =
        some (.bytes b, pos + (b.length + 1)) := by
    intro b hb hs
    have hpayload : messagePayloadMax = 59 := rfl
    rw [parseString_encoded (by omega) hs, Option.map_some]
  cases type with
  | string => exact congrArg (Option.map _) (hbytes value.1 h hs)
  | progmemBuffer => exact congrArg (Option.map _) (hbytes value h hs)
  | buffer => exact congrArg (Option.map _) (hbytes value h hs)
  | uint32 => exact congrArg (Option.map _) (hint false value hs)
  | int32 => exact congrArg (Option.map _) (hint true (UInt32.ofInt (Int32.toInt value)) hs)
  | uint16 => exact congrArg (Option.map _) (hint false (UInt16.toUInt32 value) hs)
  | int16 => exact congrArg (Option.map _) (hint true (UInt32.ofInt (Int16.toInt value)) hs)
  | byte => exact congrArg (Option.map _) (hint false (UInt8.toUInt32 value) hs)

theorem parseParams_eq {args : List ResponseArg} {s rest : Bytes} {pos : Nat}
    (h : (args.map fun a => a.encoded.length).sum ≤ messagePayloadMax)
    (hs : s.drop pos = args.flatMap ResponseArg.encoded ++ rest) :
    parseParams s pos (args.map ResponseArg.param) =
      some (args.map fun a => (a.param.name, a.param.present a.decoded),
        pos + (args.map fun a => a.encoded.length).sum) := by
  induction args generalizing pos with
  | nil => simp [parseParams]
  | cons a args ih =>
    rw [List.map_cons, List.sum_cons] at h
    rw [List.flatMap_cons, List.append_assoc] at hs
    have hnext : s.drop (pos + a.encoded.length) =
        args.flatMap ResponseArg.encoded ++ rest := by
      rw [← List.drop_drop, hs, List.drop_left]
    have hparse := parse_arg (by omega) hs
    have htail := ih (by omega) hnext
    simp [parseParams, hparse, htail, Nat.add_assoc]

/-- What `MessageParser.parse` gives for the block of a response. -/
theorem messageParse_response {args : List ResponseArg} {messagesById : UInt8 → Option MessageFormat}
    {fmt : MessageFormat} (msgseq : UInt8) (h : Fits args)
    (hfmt : fmt.params = args.map ResponseArg.param)
    (hmsg : messagesById fmt.msgid = some fmt) :
    messageParse messagesById (frame msgseq (responsePayload fmt.msgid args)) =
      .ok (args.map fun a => (a.param.name, a.param.present a.decoded), fmt.name) := by
  have hlen := length_frame msgseq (responsePayload fmt.msgid args)
  have hheader : messageHeaderSize = 2 := rfl
  have htrailer : messageTrailerSize = 3 := rfl
  have hpayload : (responsePayload fmt.msgid args).length =
      1 + (args.map fun a => a.encoded.length).sum := by
    rw [responsePayload, List.length_cons, List.length_flatMap, Nat.add_comm]
  obtain ⟨trailer, htail⟩ : ∃ trailer,
      (frame msgseq (responsePayload fmt.msgid args)).drop messageHeaderSize =
        fmt.msgid :: (args.flatMap ResponseArg.encoded ++ trailer) := ⟨_, rfl⟩
  have hdrop : (frame msgseq (responsePayload fmt.msgid args)).drop (messageHeaderSize + 1) =
      args.flatMap ResponseArg.encoded ++ trailer := by
    rw [← List.drop_drop, htail, List.drop_one, List.tail_cons]
  unfold Fits at h
  have hparse := parseParams_eq (by omega) hdrop
  rw [messageParse, htail]
  simp only [hmsg, MessageFormat.parse, hfmt, hparse]
  rw [if_neg (by omega)]

/-! ## The round trip -/

/-- The host reads the value of an argument: it is not a large negative `%i`, or the name
that it is shown by is also that of what the host reads. -/
def ResponseArg.Readable (a : ResponseArg) : Prop :=
  match a with
  | ⟨⟨name, .int32, enums⟩, v⟩ =>
      -2 ^ 26 ≤ Int32.toInt v ∨
        Param.present ⟨name, .int32, enums⟩ (.int (Int32.toInt v + 2 ^ 32)) =
          Param.present ⟨name, .int32, enums⟩ (.int (Int32.toInt v))
  | _ => True

/-- What the host reads for a `%i`: the large negative numbers come out as unsigned
ones. -/
theorem encodedInt_promote_int32 (v : Int32) :
    encodedInt (UInt32.ofInt v.toInt) =
      if v.toInt < -2 ^ 26 then v.toInt + 2 ^ 32 else v.toInt := by
  have hlo := v.le_toInt
  have hhi := v.toInt_lt
  have hsigned := toInt_ofInt (x := v.toInt) (by omega) (by omega)
  have hnat := toInt32_toInt (UInt32.ofInt v.toInt)
  rw [encodedInt, hsigned]
  split
  · split at hnat <;> omega
  · rfl

theorem present_decoded (a : ResponseArg) :
    a.param.present a.decoded = a.shown ↔ a.Readable := by
  have hsame : a.decoded = a.param.type.value a.value → a.Readable →
      (a.param.present a.decoded = a.shown ↔ a.Readable) := by
    intro hdecoded hread
    exact iff_of_true (congrArg _ hdecoded) hread
  obtain ⟨⟨name, type, enums⟩, value⟩ := a
  cases type with
  | int32 =>
    have hdecoded : ResponseArg.decoded ⟨⟨name, .int32, enums⟩, value⟩ =
        .int (if Int32.toInt value < -2 ^ 26 then Int32.toInt value + 2 ^ 32
          else Int32.toInt value) := congrArg Value.int (encodedInt_promote_int32 value)
    simp only [hdecoded, ResponseArg.shown, ParamType.value, ResponseArg.Readable]
    split
    · rename_i hlt
      exact ⟨.inr, fun h => h.resolve_left (by omega)⟩
    · rename_i hge
      exact iff_of_true rfl (.inl (by omega))
  | int16 =>
    refine hsame (congrArg Value.int ?_) trivial
    have hlo := Int16.le_toInt value
    have hsigned := toInt_promote_int16 value
    have hrange : -2 ^ 26 ≤ (UInt32.ofInt (Int16.toInt value)).toInt32.toInt := by
      omega
    exact ((encodedInt_eq_toInt _).mpr hrange).trans hsigned
  | uint16 => exact hsame (congrArg (fun n : Nat => Value.int n) (UInt16.toNat_toUInt32 value)) trivial
  | byte => exact hsame (congrArg (fun n : Nat => Value.int n) (UInt8.toNat_toUInt32 value)) trivial
  | _ => exact hsame rfl trivial

/-- The host decodes the block of a response that fits to exactly the values that were
sent, if and only if every argument is readable: the first byte of five that `encode_int`
writes has lost the sign that `PT_int32.parse` needs. -/
theorem response_roundtrip_iff {args : List ResponseArg}
    {messagesById : UInt8 → Option MessageFormat} {fmt : MessageFormat} (msgseq : UInt8)
    (h : Fits args) (hfmt : fmt.params = args.map ResponseArg.param)
    (hmsg : messagesById fmt.msgid = some fmt) :
    ∃ payload,
      commandEncodef (buildEncoder fmt.msgid (fmt.params.map Param.type))
          (args.map fun a => a.param.type.promote a.value) = some payload ∧
        (messageParse messagesById (frame msgseq payload) =
            .ok (args.map fun a => (a.param.name, a.shown), fmt.name) ↔
          ∀ a ∈ args, a.Readable) := by
  refine ⟨responsePayload fmt.msgid args, ?_, ?_⟩
  · rw [hfmt, List.map_map]
    exact commandEncodef_eq fmt.msgid h
  · rw [messageParse_response msgseq h hfmt hmsg, Except.ok.injEq, Prod.mk.injEq,
      List.map_inj_left]
    simp only [Prod.mk.injEq, true_and, and_true, present_decoded]

/-- The format `level oid=%c value=%i`. -/
def levelFormat : MessageFormat where
  msgid := 20
  name := "level"
  params := [⟨"oid", .byte, none⟩, ⟨"value", .int32, none⟩]

/-- A `messages_by_id` with this format only. -/
def levelMessages (msgid : UInt8) : Option MessageFormat :=
  if msgid = 20 then some levelFormat else none

/-- The arguments of `sendf("level oid=%c value=%i", 7, value)`. -/
def levelArgs (value : Int32) : List ResponseArg :=
  [⟨⟨"oid", .byte, none⟩, (7 : UInt8)⟩, ⟨⟨"value", .int32, none⟩, value⟩]

/-- The smallest number that is read back. -/
theorem response_roundtrip_iff_level :
    ∃ payload,
      commandEncodef (buildEncoder 20 [.byte, .int32])
          [.word 7, .word (UInt32.ofInt (-67108864))] = some payload ∧
        messageParse levelMessages (frame 0x10 payload) =
          .ok ([("oid", .int 7), ("value", .int (-67108864))], "level") := by
  have hparams : levelFormat.params = (levelArgs (-67108864)).map ResponseArg.param := rfl
  have hmsg : levelMessages levelFormat.msgid = some levelFormat := rfl
  obtain ⟨payload, hencode, hiff⟩ := response_roundtrip_iff 0x10 (by decide) hparams hmsg
  refine ⟨payload, hencode, hiff.mpr ?_⟩
  intro a ha
  simp only [levelArgs, List.mem_cons, List.not_mem_nil, or_false] at ha
  rcases ha with rfl | rfl
  · trivial
  · exact .inl (by decide)

/-- The next smaller number comes back as a large positive one. -/
theorem response_negative_unsigned :
    commandEncodef (buildEncoder 20 [.byte, .int32])
        [.word 7, .word (UInt32.ofInt (-67108865))] =
      some [20, 7, 0x8f, 0xdf, 0xff, 0xff, 0x7f] ∧
      messageParse levelMessages
          (frame 0x10 [20, 7, 0x8f, 0xdf, 0xff, 0xff, 0x7f]) =
        .ok ([("oid", .int 7), ("value", .int 4227858431)], "level") ∧
      Value.int 4227858431 ≠ .int (-67108865) := by
  refine ⟨?_, ?_, ?_⟩
  · rfl
  · rfl
  · decide

end FlsunT1.Wire
