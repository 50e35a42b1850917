/-
  Wire/Msgproto.lean --- the message formats of the host.

  Source: klipper/klippy/msgproto.py.  Python's integers are unbounded: `v >> k`
  is the quotient rounded down, `v & 0x7f` the remainder of 128, and `v << 7` with
  `| (c & 0x7f)` is `v * 128 + (c & 0x7f)`.  A packet is its list of bytes.
-/
import FlsunT1.Wire.Codec

set_option autoImplicit false

namespace FlsunT1.Wire

open FlsunT1.Library

/-! ## Parameter types -/

/-- The classes of `MessageTypes`; the constants `PT_...` of klipper/src/command.h have
the same names. -/
inductive ParamType
  | uint32
  | int32
  | uint16
  | int16
  | byte
  | string
  | progmemBuffer
  | buffer
  deriving DecidableEq, Repr

/-- `is_int` -/
def ParamType.isInt : ParamType → Bool
  | .uint32 | .int32 | .uint16 | .int16 | .byte => true
  | .string | .progmemBuffer | .buffer => false

/-- `signed` -/
def ParamType.signed : ParamType → Bool
  | .int32 | .int16 => true
  | _ => false

/-- `max_length` -/
def ParamType.maxLength : ParamType → Nat
  | .uint32 | .int32 => 5
  | .uint16 | .int16 => 3
  | .byte => 2
  | .string | .progmemBuffer | .buffer => 64

/-- A value of a parameter: a number, a string of bytes, or the name of an enumeration. -/
inductive Value
  | int (v : Int)
  | bytes (b : Bytes)
  | name (s : String)
  deriving DecidableEq, Repr

/-- `PT_uint32.encode` -/
def encodeUint32 (v : Int) : Bytes :=
  (if v ≥ 0xc000000 ∨ v < -0x4000000 then [Vlq.contByte (v >>> (28 : Nat))] else []) ++
    (if v ≥ 0x180000 ∨ v < -0x80000 then [Vlq.contByte (v >>> (21 : Nat))] else []) ++
    (if v ≥ 0x3000 ∨ v < -0x1000 then [Vlq.contByte (v >>> (14 : Nat))] else []) ++
    (if v ≥ 0x60 ∨ v < -0x20 then [Vlq.contByte (v >>> (7 : Nat))] else []) ++
    [Vlq.lastByte v]

/-- The loop of `PT_uint32.parse`, on the packet from `pos` on. -/
def parseUint32Loop (v : Int) (pos : Nat) : Bytes → Option (Int × Nat)
  | [] => none
  | c :: s =>
      let v := v * 128 + Vlq.digit c
      if c &&& 0x80 ≠ 0 then parseUint32Loop v (pos + 1) s else some (v, pos + 1)

/-- `PT_uint32.parse`.  There is no result when the packet is too short. -/
def parseUint32 (signed : Bool) (s : Bytes) (pos : Nat) : Option (Int × Nat) :=
  match s.drop pos with
  | [] => none
  | c :: rest =>
      -- `v |= -0x20` sets all bits from the sixth on
      let v := if c &&& 0x60 = 0x60 then Vlq.digit c - 0x80 else Vlq.digit c
      let r := if c &&& 0x80 ≠ 0 then parseUint32Loop v (pos + 1) rest else some (v, pos + 1)
      r.map fun (v, pos) => (if signed then v else v % 0x100000000, pos)

/-- `PT_string.encode`.  The length is one byte wherever the result fits in a block. -/
def encodeString (v : Bytes) : Bytes := UInt8.ofNat v.length :: v

/-- `PT_string.parse` -/
def parseString (s : Bytes) (pos : Nat) : Option (Bytes × Nat) :=
  match s.drop pos with
  | [] => none
  | l :: rest => some (rest.take l.toNat, pos + l.toNat + 1)

/-- `encode` of the classes of `MessageTypes`; there is no result for a value of another
type. -/
def ParamType.encode (t : ParamType) : Value → Option Bytes
  | .int v => if t.isInt then some (encodeUint32 v) else none
  | .bytes b => if t.isInt then none else some (encodeString b)
  | .name _ => none

/-- `parse` of the classes of `MessageTypes`. -/
def ParamType.parse (t : ParamType) (s : Bytes) (pos : Nat) : Option (Value × Nat) :=
  if t.isInt then (parseUint32 t.signed s pos).map fun (v, pos) => (.int v, pos)
  else (parseString s pos).map fun (b, pos) => (.bytes b, pos)

/-! ## Message formats -/

/-- What `lookup_params` gives for a parameter: its type, and the names and values when
it is an `Enumeration`. -/
structure Param where
  name : String
  type : ParamType
  enums : Option (List (String × Int))
  deriving DecidableEq, Repr

/-- `Enumeration.parse`, after the number was parsed; a number of another parameter is
itself. -/
def Param.present (p : Param) (v : Value) : Value :=
  match p.enums, v with
  | some enums, .int v =>
      match enums.reverse.find? (fun e => e.2 = v) with
      | some e => .name e.1
      | none => .name ("?" ++ toString v)
  | _, v => v

/-- `encode` of a parameter. -/
def Param.encode (p : Param) (v : Value) : Option Bytes :=
  match p.enums, v with
  | none, v => p.type.encode v
  | some enums, .name s => ((enums.find? (fun e => e.1 = s)).map fun e => .int e.2).bind p.type.encode
  | some _, _ => none

/-- `parse` of a parameter. -/
def Param.parse (p : Param) (s : Bytes) (pos : Nat) : Option (Value × Nat) :=
  (p.type.parse s pos).map fun (v, pos) => (p.present v, pos)

/-- `class MessageFormat` -/
structure MessageFormat where
  msgid : UInt8
  name : String
  params : List Param
  deriving DecidableEq, Repr

/-- The loop of `MessageFormat.encode`. -/
def encodeParams : List Param → List Value → Option Bytes
  | [], _ => some []
  | _ :: _, [] => none
  | p :: ps, v :: vs => do
      let out ← p.encode v
      let rest ← encodeParams ps vs
      pure (out ++ rest)

/-- `MessageFormat.encode` -/
def MessageFormat.encode (fmt : MessageFormat) (params : List Value) : Option Bytes :=
  (encodeParams fmt.params params).map (fmt.msgid :: ·)

/-- The loop of `MessageFormat.parse`.  The dictionary is the list of its assignments. -/
def parseParams (s : Bytes) : Nat → List Param → Option (List (String × Value) × Nat)
  | pos, [] => some ([], pos)
  | pos, p :: ps => do
      let (v, pos) ← p.parse s pos
      let (out, pos) ← parseParams s pos ps
      pure ((p.name, v) :: out, pos)

/-- `MessageFormat.parse` -/
def MessageFormat.parse (fmt : MessageFormat) (s : Bytes) (pos : Nat) :
    Option (List (String × Value) × Nat) :=
  parseParams s (pos + 1) fmt.params

/-- Why `MessageParser.parse` fails. -/
inductive ParseFault
  /-- the packet ends too early -/
  | indexError
  /-- `error("Extra data at end of message")` -/
  | extraData
  deriving DecidableEq, Repr

/-- `MessageParser.parse`, for the formats of `messages_by_id`. -/
def messageParse (messagesById : UInt8 → Option MessageFormat) (s : Bytes) :
    Except ParseFault (List (String × Value) × String) :=
  match s.drop messageHeaderSize with
  | [] => .error .indexError
  | msgid :: _ =>
      match messagesById msgid with
      | none =>
          -- class UnknownFormat
          .ok ([("#msgid", .int msgid.toNat), ("#msg", .bytes s)], "#unknown")
      | some mid =>
          match mid.parse s messageHeaderSize with
          | none => .error .indexError
          | some (params, pos) =>
              if (pos : Int) ≠ s.length - messageTrailerSize then .error .extraData
              else .ok (params, mid.name)

/-! ## What is written and read -/

/-- `PT_uint32.encode` writes the number with the digits that hold it, up to five of
them. -/
theorem encodeUint32_eq {v : Int} (hlo : -2 ^ 33 ≤ v) (hhi : v < 2 ^ 32) :
    ∃ n, encodeUint32 v = Vlq.write n v ∧ Vlq.InRange n v := by
  have h4 : v >>> (28 : Nat) = v / 128 ^ 4 := Int.shiftRight_eq_div_pow v 28
  have h3 : v >>> (21 : Nat) = v / 128 ^ 3 := Int.shiftRight_eq_div_pow v 21
  have h2 : v >>> (14 : Nat) = v / 128 ^ 2 := Int.shiftRight_eq_div_pow v 14
  have h1 : v >>> (7 : Nat) = v / 128 ^ 1 := Int.shiftRight_eq_div_pow v 7
  unfold encodeUint32 Vlq.InRange
  rw [h4, h3, h2, h1]
  by_cases c4 : v ≥ 0xc000000 ∨ v < -0x4000000
  · refine ⟨4, ?_, by omega⟩
    rw [if_pos c4, if_pos (by omega), if_pos (by omega), if_pos (by omega)]
    rfl
  by_cases c3 : v ≥ 0x180000 ∨ v < -0x80000
  · refine ⟨3, ?_, by omega⟩
    rw [if_neg c4, if_pos c3, if_pos (by omega), if_pos (by omega)]
    rfl
  by_cases c2 : v ≥ 0x3000 ∨ v < -0x1000
  · refine ⟨2, ?_, by omega⟩
    rw [if_neg c4, if_neg c3, if_pos c2, if_pos (by omega)]
    rfl
  by_cases c1 : v ≥ 0x60 ∨ v < -0x20
  · refine ⟨1, ?_, by omega⟩
    rw [if_neg c4, if_neg c3, if_neg c2, if_pos c1]
    rfl
  · refine ⟨0, ?_, by omega⟩
    rw [if_neg c4, if_neg c3, if_neg c2, if_neg c1]
    rfl

theorem parseUint32Loop_eq {v y : Int} {s rest : Bytes} (pos : Nat)
    (h : Vlq.readTail v s = some (y, rest)) :
    ∃ pos', parseUint32Loop v pos s = some (y, pos') ∧ pos' + rest.length = pos + s.length := by
  induction s generalizing v pos with
  | nil => cases h
  | cons c s ih =>
    rw [Vlq.readTail] at h
    rw [parseUint32Loop]
    by_cases hmore : Vlq.More c
    · rw [if_pos hmore] at h
      rw [if_pos ((and_0x80 c).mpr hmore)]
      obtain ⟨pos', heq, hlen⟩ := ih (pos + 1) h
      refine ⟨pos', heq, ?_⟩
      rw [List.length_cons]
      omega
    · rw [if_neg hmore, Option.some.injEq, Prod.mk.injEq] at h
      rw [if_neg (fun hc => hmore ((and_0x80 c).mp hc)), ← h.1, ← h.2]
      refine ⟨pos + 1, rfl, ?_⟩
      rw [List.length_cons]
      omega

/-- `PT_uint32.parse` reads the number, and then reduces it when it is unsigned. -/
theorem parseUint32_eq {y : Int} {pos : Nat} {s p rest : Bytes} (signed : Bool)
    (hs : s.drop pos = p) (h : Vlq.read p = some (y, rest)) :
    ∃ pos', parseUint32 signed s pos = some (if signed then y else y % 0x100000000, pos') ∧
      pos' + rest.length = pos + p.length := by
  rw [parseUint32, hs]
  cases p with
  | nil => cases h
  | cons c p =>
    have hsign : (if c &&& 0x60 = 0x60 then Vlq.digit c - 0x80 else Vlq.digit c) =
        Vlq.signDigit c := by
      rw [Vlq.signDigit]
      exact if_congr (and_0x60 c) rfl rfl
    rw [Vlq.read] at h
    simp only [hsign]
    by_cases hmore : Vlq.More c
    · rw [if_pos hmore] at h
      obtain ⟨pos', heq, hlen⟩ := parseUint32Loop_eq (pos + 1) h
      refine ⟨pos', by rw [if_pos ((and_0x80 c).mpr hmore), heq]; rfl, ?_⟩
      rw [List.length_cons]
      omega
    · rw [if_neg hmore, Option.some.injEq, Prod.mk.injEq] at h
      refine ⟨pos + 1, ?_, ?_⟩
      · rw [if_neg (fun hc => hmore ((and_0x80 c).mp hc)), ← h.1]
        rfl
      · rw [← h.2, List.length_cons]
        omega

end FlsunT1.Wire
