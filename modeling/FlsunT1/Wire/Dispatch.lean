/-
  Wire/Dispatch.lean --- commands from the host to the firmware.

  Source: `command_parsef`, `command_lookup_parser` and `command_dispatch`,
  klipper/src/command.c, with the table entries of `build_parser`, klipper/scripts/
  buildcommands.py, and `message_alloc_and_encode`, klipper/klippy/chelper/msgblock.c;
  the host's other encoder is in Wire/Msgproto.lean.

  A pointer into the receive buffer is the part of the memory from there on.  The
  state of the firmware and what its handlers do to it are parameters.
-/
import FlsunT1.Wire.Msgproto

set_option autoImplicit false

namespace FlsunT1.Wire

open FlsunT1.Library

/-! ## The firmware -/

/-- How a call ends early: by `shutdown`, or by a read past the end of the memory. -/
inductive Stop
  | shutdown (msg : String)
  | overrun
  deriving DecidableEq, Repr

/-- `struct command_parser`, with its handler: `func` gets the arguments and can follow
the pointers among them into the receive buffer. -/
structure CommandParser (σ : Type) where
  numArgs : Nat
  inShutdown : Bool
  paramTypes : List ParamType
  func : List UInt32 → Bytes → σ → Except Stop σ

/-- What `command_dispatch` uses of the rest of the firmware; `commandIndex` is the table
that the build generates. -/
structure Firmware (σ : Type) where
  commandIndex : List (CommandParser σ)
  isShutdown : σ → Bool
  reportShutdown : σ → σ
  irqPoll : σ → Except Stop σ

/-- `build_parser` for a message to be parsed. -/
def buildParser {σ : Type} (paramTypes : List ParamType) (inShutdown : Bool)
    (func : List UInt32 → Bytes → σ → Except Stop σ) : CommandParser σ where
  numArgs := paramTypes.length + paramTypes.count .progmemBuffer + paramTypes.count .buffer
  inShutdown := inShutdown
  paramTypes := paramTypes
  func := func

variable {σ : Type}

/-! ## Parsing -/

/-- `command_encode_ptr`, as the offset in the receive buffer. -/
def commandEncodePtr (buf p : Bytes) : UInt32 := UInt32.ofNat (buf.length - p.length)

/-- `command_decode_ptr` -/
def commandDecodePtr (buf : Bytes) (v : UInt32) : Bytes := buf.drop v.toNat

/-- The text of the shutdown of `command_parsef`. -/
def parserError : Stop := .shutdown "Command parser error"

/-- The `switch` of `command_parsef`: the arguments for one parameter, and where the next
one starts. -/
def parsefParam (buf p maxend : Bytes) : ParamType → Except Stop (List UInt32 × Bytes)
  | .uint32 | .int32 | .uint16 | .int16 | .byte =>
      match parseInt p with
      | none => .error .overrun
      | some (v, p) => .ok ([v], p)
  | .buffer =>
      match p with
      | [] => .error .overrun
      | len :: p =>
          if p.length < maxend.length + len.toNat then .error parserError
          else .ok ([len.toUInt32, commandEncodePtr buf p], p.drop len.toNat)
  | .string | .progmemBuffer => .error parserError

/-- `command_parsef`: parse an incoming command into `args`. -/
def commandParsef (buf p maxend : Bytes) : List ParamType → Except Stop (List UInt32 × Bytes)
  | [] => .ok ([], p)
  | t :: ts =>
      if p.length < maxend.length then .error parserError
      else do
        let (args, p) ← parsefParam buf p maxend t
        let (rest, p) ← commandParsef buf p maxend ts
        pure (args ++ rest, p)

/-- `command_lookup_parser`: find the command handler associated with a command. -/
def commandLookupParser (fw : Firmware σ) (cmdid : UInt8) : Except Stop (CommandParser σ) :=
  match fw.commandIndex[cmdid.toNat]? with
  | none => .error (.shutdown "Invalid command")
  | some cp => if cmdid = 0 then .error (.shutdown "Invalid command") else .ok cp

/-- What `command_dispatch` does with a command that is parsed. -/
def dispatchOne (fw : Firmware σ) (cp : CommandParser σ) (args : List UInt32) (buf : Bytes)
    (s : σ) : Except Stop σ :=
  if fw.isShutdown s ∧ ¬cp.inShutdown then .ok (fw.reportShutdown s)
  else (fw.irqPoll s).bind (cp.func args buf)

/-- The loop of `command_dispatch`, for at most the given number of rounds. -/
def dispatchLoop (fw : Firmware σ) (buf msgend : Bytes) : Nat → Bytes → σ → Except Stop σ
  | 0, _, s => .ok s
  | rounds + 1, p, s =>
      if p.length ≤ msgend.length then .ok s
      else match p with
        | [] => .error .overrun
        | cmdid :: p => do
            let cp ← commandLookupParser fw cmdid
            let (args, p) ← commandParsef buf p msgend cp.paramTypes
            let s ← dispatchOne fw cp args buf s
            dispatchLoop fw buf msgend rounds p s

/-- `command_dispatch`: dispatch all the commands found in a message block at the front of
the receive buffer.  Every round takes at least one byte. -/
def commandDispatch (fw : Firmware σ) (buf : Bytes) (msglen : Nat) (s : σ) : Except Stop σ :=
  dispatchLoop fw buf (buf.drop (msglen - messageTrailerSize)) buf.length
    (buf.drop messageHeaderSize) s

/-! ## The host's encoder in C -/

/-- The loop of `message_alloc_and_encode`; there is no result for an "Encode error". -/
def allocAndEncodeLoop (msg : Bytes) : List UInt32 → Option Bytes
  | [] => some msg
  | v :: data =>
      let msg := msg ++ encodeInt v
      if msg.length > messagePayloadMax then none else allocAndEncodeLoop msg data

/-- `message_alloc_and_encode`: a message filled with a series of encoded vlq integers. -/
def messageAllocAndEncode (data : List UInt32) : Option Bytes := allocAndEncodeLoop [] data

/-! ## Commands and their encodings -/

/-- `msgtag` of the data dictionary: message ids from 96 on are given as negative
numbers. -/
def msgtag (msgid : UInt8) : Int := if msgid.toNat < 96 then msgid.toNat else msgid.toNat - 128

/-- A value that `command_parsef` accepts for a parameter: an integer that 32 bits hold
signed or unsigned, or a buffer. -/
inductive Accepts : Param → Value → Prop
  | int {name : String} {type : ParamType} {v : Int} (hint : type.isInt = true)
      (hlo : -2 ^ 31 ≤ v) (hhi : v < 2 ^ 32) : Accepts ⟨name, type, none⟩ (.int v)
  | buffer {name : String} {b : Bytes} : Accepts ⟨name, .buffer, none⟩ (.bytes b)

/-- A command with the values of its parameters. -/
structure HostCommand where
  fmt : MessageFormat
  args : List Value
  deriving DecidableEq, Repr

/-- The number of an integer argument. -/
def Value.toInt : Value → Int
  | .int v => v
  | .bytes _ | .name _ => 0

/-- The bytes of a command are those of `MessageFormat.encode`, or, when it has integers
only, those of `message_alloc_and_encode`. -/
inductive HostCommand.EncodedAs (c : HostCommand) (msg : Bytes) : Prop
  | encode (h : c.fmt.encode c.args = some msg)
  | allocAndEncode (hint : ∀ p ∈ c.fmt.params, p.type.isInt = true)
      (h : messageAllocAndEncode
        ((msgtag c.fmt.msgid :: c.args.map Value.toInt).map UInt32.ofInt) = some msg)

/-- A command that the firmware was built with: its id is one byte of a vlq, and the table
has the entry that is built from its format. -/
structure HostCommand.Known (fw : Firmware σ) (c : HostCommand) (cp : CommandParser σ) :
    Prop where
  ne_zero : c.fmt.msgid ≠ 0
  lt : c.fmt.msgid.toNat < 128
  entry : fw.commandIndex[c.fmt.msgid.toNat]? = some cp
  built : cp = buildParser (c.fmt.params.map Param.type) cp.inShutdown cp.func
  accepts : List.Forall₂ Accepts c.fmt.params c.args

/-- What a handler finds for a parameter at the front of its arguments: an integer, or the
buffer that a length and a pointer lead to. -/
def handlerArg (buf : Bytes) (t : ParamType) : List UInt32 → Option (Value × List UInt32)
  | [] => none
  | v :: args =>
      if t.isInt then some (.int v.toNat, args)
      else match args with
        | [] => none
        | ptr :: args => some (.bytes ((commandDecodePtr buf ptr).take v.toNat), args)

/-- What a handler finds in its arguments. -/
def handlerArgs (buf : Bytes) : List ParamType → List UInt32 → Option (List Value)
  | [], args => if args = [] then some [] else none
  | t :: ts, args =>
      (handlerArg buf t args).bind fun (v, args) => (handlerArgs buf ts args).map (v :: ·)

/-- What the firmware gets of a value: integers modulo `2^32`. -/
def Value.wrap : Value → Value
  | .int v => .int (v % 2 ^ 32)
  | v => v

/-- The commands of a block, one after the other. -/
def runHandlers (fw : Firmware σ) (buf : Bytes) (calls : List (CommandParser σ × List UInt32))
    (s : σ) : Except Stop σ :=
  calls.foldlM (fun s call => dispatchOne fw call.1 call.2 buf s) s

/-! ## The bytes of the arguments -/

/-- The bytes of one argument, as any of the encoders writes it. -/
inductive ParamBytes : ParamType → Value → Bytes → Prop
  | int {t : ParamType} {v x : Int} {n : Nat} (hint : t.isInt = true) (hrange : Vlq.InRange n x)
      (hmod : x % 2 ^ 32 = v % 2 ^ 32) : ParamBytes t (.int v) (Vlq.write n x)
  | buffer {b : Bytes} (h : b.length < 2 ^ 8) :
      ParamBytes .buffer (.bytes b) (UInt8.ofNat b.length :: b)

/-- The bytes of the arguments of a command. -/
inductive ArgBytes : List ParamType → List Value → Bytes → Prop
  | nil : ArgBytes [] [] []
  | cons {t : ParamType} {v : Value} {e rest : Bytes} {ts : List ParamType} {vs : List Value}
      (h : ParamBytes t v e) (hrest : ArgBytes ts vs rest) : ArgBytes (t :: ts) (v :: vs) (e ++ rest)

theorem toNat_ofInt (x : Int) : ((UInt32.ofInt x).toNat : Int) = x % 2 ^ 32 := by
  rw [UInt32.ofInt, UInt32.toNat_ofNat']
  omega

theorem encode_bytes {p : Param} {v : Value} {e : Bytes} (h : Accepts p v)
    (henc : p.encode v = some e) (hlen : e.length ≤ messagePayloadMax) :
    ParamBytes p.type v e := by
  cases h with
  | @int name type v hint hlo hhi =>
    obtain ⟨n, hwrite, hrange⟩ := encodeUint32_eq (v := v) (by omega) hhi
    simp only [Param.encode, ParamType.encode, hint, if_true, Option.some.injEq] at henc
    rw [← henc, hwrite]
    exact .int hint hrange rfl
  | @buffer name b =>
    have hpayload : messagePayloadMax = 59 := rfl
    simp only [Param.encode, ParamType.encode, ParamType.isInt, Bool.false_eq_true, if_false,
      Option.some.injEq] at henc
    rw [← henc] at hlen ⊢
    rw [encodeString, List.length_cons] at hlen
    exact .buffer (by omega)

theorem encodeInt_bytes {p : Param} {v : Value} (h : Accepts p v) (hint : p.type.isInt = true) :
    ParamBytes p.type v (encodeInt (UInt32.ofInt v.toInt)) := by
  cases h with
  | @int name type v _ hlo hhi =>
    obtain ⟨n, -, henc, hrange⟩ := encodeInt_eq (UInt32.ofInt v)
    simp only [Value.toInt]
    rw [henc]
    exact .int hint hrange ((encodedInt_emod _).trans (toNat_ofInt v))
  | buffer => cases hint

theorem encodeParams_bytes {ps : List Param} {vs : List Value} {out : Bytes}
    (h : List.Forall₂ Accepts ps vs) (henc : encodeParams ps vs = some out)
    (hlen : out.length ≤ messagePayloadMax) : ArgBytes (ps.map Param.type) vs out := by
  induction h generalizing out with
  | nil =>
    rw [encodeParams, Option.some.injEq] at henc
    rw [← henc]
    exact .nil
  | @cons p v ps vs hp hps ih =>
    simp only [encodeParams, Option.bind_eq_bind, Option.bind_eq_some_iff, Option.pure_def,
      Option.some.injEq] at henc
    obtain ⟨e, he, rest, hrest, hout⟩ := henc
    rw [← hout, List.length_append] at hlen
    rw [← hout, List.map_cons]
    exact .cons (encode_bytes hp he (by omega)) (ih hrest (by omega))

theorem allocAndEncodeLoop_eq {data : List UInt32} {msg out : Bytes}
    (h : allocAndEncodeLoop msg data = some out) : out = msg ++ data.flatMap encodeInt := by
  induction data generalizing msg with
  | nil =>
    rw [allocAndEncodeLoop, Option.some.injEq] at h
    simp [h]
  | cons v data ih =>
    simp only [allocAndEncodeLoop] at h
    split at h
    · cases h
    · rw [ih h]
      simp

theorem flatMap_encodeInt_bytes {ps : List Param} {vs : List Value}
    (h : List.Forall₂ Accepts ps vs) (hint : ∀ p ∈ ps, p.type.isInt = true) :
    ArgBytes (ps.map Param.type) vs
      (((vs.map Value.toInt).map UInt32.ofInt).flatMap encodeInt) := by
  induction h with
  | nil => exact .nil
  | @cons p v ps vs hp hps ih =>
    simp only [List.map_cons, List.flatMap_cons]
    exact .cons (encodeInt_bytes hp (hint p (by simp)))
      (ih fun q hq => hint q (List.mem_cons_of_mem p hq))

theorem encodeInt_msgtag {msgid : UInt8} (h : msgid.toNat < 128) :
    encodeInt (UInt32.ofInt (msgtag msgid)) = [msgid] := by
  have hall : ∀ n : Fin 128,
      encodeInt (UInt32.ofInt (msgtag (UInt8.ofNat n))) = [UInt8.ofNat n] := by
    decide +kernel
  have hid := hall ⟨msgid.toNat, h⟩
  rw [UInt8.ofNat_toNat] at hid
  exact hid

theorem HostCommand.EncodedAs.bytes {fw : Firmware σ} {c : HostCommand} {cp : CommandParser σ}
    {msg : Bytes} (h : c.EncodedAs msg) (hknown : c.Known fw cp)
    (hlen : msg.length ≤ messagePayloadMax) :
    ∃ body, msg = c.fmt.msgid :: body ∧ ArgBytes (c.fmt.params.map Param.type) c.args body := by
  cases h with
  | encode h =>
    rw [MessageFormat.encode, Option.map_eq_some_iff] at h
    obtain ⟨body, hbody, rfl⟩ := h
    refine ⟨body, rfl, encodeParams_bytes hknown.accepts hbody ?_⟩
    rw [List.length_cons] at hlen
    omega
  | allocAndEncode hint h =>
    have heq := allocAndEncodeLoop_eq h
    rw [List.nil_append, List.map_cons, List.flatMap_cons, encodeInt_msgtag hknown.lt] at heq
    exact ⟨_, heq, flatMap_encodeInt_bytes hknown.accepts hint⟩

/-! ## Dispatching the bytes -/

theorem commandDecodePtr_encodePtr {buf p : Bytes} (hp : p <:+ buf)
    (hbuf : buf.length < p.length + 2 ^ 32) :
    commandDecodePtr buf (commandEncodePtr buf p) = p := by
  have hle := hp.length_le
  rw [commandDecodePtr, commandEncodePtr, UInt32.toNat_ofNat',
    Nat.mod_eq_of_lt (by omega)]
  exact (List.suffix_iff_eq_drop.mp hp).symm

/-- An argument is parsed from its bytes. -/
theorem parsefParam_bytes {buf e tail maxend : Bytes} {t : ParamType} {v : Value}
    (h : ParamBytes t v e) (hp : e ++ tail <:+ buf) (hend : maxend.length ≤ tail.length)
    (hbuf : buf.length < maxend.length + 2 ^ 32) :
    ∃ args, parsefParam buf (e ++ tail) maxend t = .ok (args, tail) ∧
      ∀ rest, handlerArg buf t (args ++ rest) = some (v.wrap, rest) := by
  cases h with
  | @int _ v x n hint hrange hmod =>
    have hread := parseInt_eq (Vlq.read_write hrange tail)
    have hnat : ((UInt32.ofInt x).toNat : Int) = v % 2 ^ 32 := (toNat_ofInt x).trans hmod
    refine ⟨[UInt32.ofInt x], ?_, ?_⟩
    · cases t with
      | string | progmemBuffer | buffer => cases hint
      | _ => simp only [parsefParam, hread]
    · intro rest
      simp [handlerArg, hint, Value.wrap, hnat]
  | @buffer b hb =>
    have hlen : (UInt8.ofNat b.length).toNat = b.length := by
      rw [UInt8.toNat_ofNat']
      omega
    have hsuffix : b ++ tail <:+ buf := (List.suffix_cons _ _).trans hp
    refine ⟨[(UInt8.ofNat b.length).toUInt32, commandEncodePtr buf (b ++ tail)], ?_, ?_⟩
    · rw [List.cons_append, parsefParam]
      simp only [hlen]
      rw [if_neg (by rw [List.length_append]; omega), List.drop_left]
    · intro rest
      have hptr := commandDecodePtr_encodePtr hsuffix (by rw [List.length_append]; omega)
      simp [handlerArg, ParamType.isInt, Value.wrap, hptr, hlen]

theorem commandParsef_bytes {buf e tail maxend : Bytes} {ts : List ParamType} {vs : List Value}
    (h : ArgBytes ts vs e) (hp : e ++ tail <:+ buf) (hend : maxend.length ≤ tail.length)
    (hbuf : buf.length < maxend.length + 2 ^ 32) :
    ∃ args, commandParsef buf (e ++ tail) maxend ts = .ok (args, tail) ∧
      handlerArgs buf ts args = some (vs.map Value.wrap) := by
  induction h with
  | nil => exact ⟨[], rfl, rfl⟩
  | @cons t v e rest ts vs h hrest ih =>
    rw [List.append_assoc] at hp ⊢
    obtain ⟨args, hparam, harg⟩ := parsefParam_bytes h hp
      (by rw [List.length_append]; omega) hbuf
    obtain ⟨args', hparse, hargs⟩ := ih ((List.suffix_append _ _).trans hp)
    refine ⟨args ++ args', ?_, ?_⟩
    · rw [commandParsef, if_neg (by rw [List.length_append, List.length_append]; omega), hparam]
      simp only [bind, Except.bind, hparse, pure, Except.pure]
    · rw [handlerArgs, harg args', Option.bind_some]
      simp only [hargs, Option.map_some, List.map_cons]

/-- A round of `command_dispatch` at a command. -/
theorem dispatchLoop_command {fw : Firmware σ} {c : HostCommand} {cp : CommandParser σ}
    {buf body tail msgend : Bytes} {rounds : Nat} (hknown : c.Known fw cp)
    (h : ArgBytes (c.fmt.params.map Param.type) c.args body)
    (hp : c.fmt.msgid :: (body ++ tail) <:+ buf) (hend : msgend.length ≤ tail.length)
    (hbuf : buf.length < msgend.length + 2 ^ 32) :
    ∃ args, handlerArgs buf (c.fmt.params.map Param.type) args = some (c.args.map Value.wrap) ∧
      ∀ s, dispatchLoop fw buf msgend (rounds + 1) (c.fmt.msgid :: (body ++ tail)) s =
        (dispatchOne fw cp args buf s).bind (dispatchLoop fw buf msgend rounds tail) := by
  obtain ⟨args, hparse, hargs⟩ :=
    commandParsef_bytes h ((List.suffix_cons _ _).trans hp) hend hbuf
  have htypes : cp.paramTypes = c.fmt.params.map Param.type := by
    rw [hknown.built]
    rfl
  refine ⟨args, hargs, fun s => ?_⟩
  rw [dispatchLoop, if_neg (by rw [List.length_cons, List.length_append]; omega)]
  simp only [commandLookupParser, hknown.entry, hknown.ne_zero, if_false, bind, Except.bind,
    htypes, hparse]

theorem length_le_flatten {fw : Firmware σ} {cmds : List HostCommand}
    {cps : List (CommandParser σ)} {msgs : List Bytes}
    (hknown : List.Forall₂ (HostCommand.Known fw) cmds cps)
    (henc : List.Forall₂ HostCommand.EncodedAs cmds msgs)
    (hfits : msgs.flatten.length ≤ messagePayloadMax) : cmds.length ≤ msgs.flatten.length := by
  induction henc generalizing cps with
  | nil => exact Nat.zero_le _
  | @cons c msg cmds msgs hmsg hmsgs ih =>
    cases hknown with
    | cons hcp hcps =>
      rw [List.flatten_cons, List.length_append] at hfits ⊢
      obtain ⟨body, rfl, -⟩ := hmsg.bytes hcp (by omega)
      have hle := ih hcps (by omega)
      simp only [List.length_cons]
      omega

/-- The rounds of `command_dispatch` on the bytes of several commands. -/
theorem dispatchLoop_commands {fw : Firmware σ} {cmds : List HostCommand}
    {cps : List (CommandParser σ)} {msgs : List Bytes} {buf tail msgend : Bytes} {rounds : Nat}
    (hknown : List.Forall₂ (HostCommand.Known fw) cmds cps)
    (henc : List.Forall₂ HostCommand.EncodedAs cmds msgs)
    (hfits : msgs.flatten.length ≤ messagePayloadMax) (hp : msgs.flatten ++ tail <:+ buf)
    (hend : msgend.length = tail.length) (hbuf : buf.length < msgend.length + 2 ^ 32)
    (hrounds : cmds.length ≤ rounds) :
    ∃ argss,
      List.Forall₂ (fun c args => handlerArgs buf (c.fmt.params.map Param.type) args =
        some (c.args.map Value.wrap)) cmds argss ∧
      ∀ s, dispatchLoop fw buf msgend rounds (msgs.flatten ++ tail) s =
        runHandlers fw buf (cps.zip argss) s := by
  induction henc generalizing cps rounds with
  | nil =>
    refine ⟨[], .nil, fun s => ?_⟩
    cases rounds with
    | zero =>
      rw [List.zip_nil_right]
      rfl
    | succ rounds =>
      have hnil : (List.flatten [] ++ tail).length ≤ msgend.length := by simp [hend]
      simp only [dispatchLoop, if_pos hnil, List.zip_nil_right]
      rfl
  | @cons c msg cmds msgs hmsg hmsgs ih =>
    cases hknown with
    | @cons _ cp _ cps hcp hcps =>
      rw [List.flatten_cons, List.length_append] at hfits
      rw [List.flatten_cons, List.append_assoc] at hp
      obtain ⟨body, rfl, hbody⟩ := hmsg.bytes hcp (by omega)
      cases rounds with
      | zero => simp at hrounds
      | succ rounds =>
        have htail : msgend.length ≤ (msgs.flatten ++ tail).length := by
          rw [List.length_append]
          omega
        obtain ⟨args, hargs, hround⟩ := dispatchLoop_command hcp hbody hp htail hbuf
        obtain ⟨argss, hargss, hrest⟩ := ih hcps (by omega)
          ((List.suffix_append _ _).trans hp) (by simpa using hrounds)
        refine ⟨args :: argss, .cons hargs hargss, fun s => ?_⟩
        rw [List.flatten_cons, List.append_assoc, List.cons_append, hround,
          List.zip_cons_cons, runHandlers, List.foldlM_cons]
        simp only [bind, Except.bind]
        cases dispatchOne fw cp args buf s with
        | error e => rfl
        | ok s => exact hrest s

theorem runHandlers_ne_parserError {fw : Firmware σ} {buf : Bytes}
    {calls : List (CommandParser σ × List UInt32)}
    (hpoll : ∀ s, fw.irqPoll s ≠ .error parserError)
    (hfunc : ∀ call ∈ calls, ∀ s, call.1.func call.2 buf s ≠ .error parserError) (s : σ) :
    runHandlers fw buf calls s ≠ .error parserError := by
  induction calls generalizing s with
  | nil =>
    intro h
    cases h
  | cons call calls ih =>
    have hone : dispatchOne fw call.1 call.2 buf s ≠ .error parserError := by
      unfold dispatchOne
      split
      · intro h
        cases h
      · cases hp : fw.irqPoll s with
        | error e =>
          intro h
          exact hpoll s (hp.trans h)
        | ok s => exact hfunc call (by simp) s
    rw [runHandlers, List.foldlM_cons]
    cases hd : dispatchOne fw call.1 call.2 buf s with
    | error e =>
      intro h
      exact hone (hd.trans h)
    | ok s => exact ih (fun c hc => hfunc c (List.mem_cons_of_mem _ hc)) s

/-- The sequence byte that `build_and_send_command` puts into the header. -/
def headerSeq (sendSeq : UInt64) : UInt8 := messageDest ||| (sendSeq.toUInt8 &&& messageSeqMask)

theorem headerSeq_isSeq (sendSeq : UInt64) :
    headerSeq sendSeq &&& ~~~messageSeqMask = messageDest := by
  have hbits : ∀ v : BitVec 8, (16#8 ||| (v &&& 15#8)) &&& ~~~15#8 = 16#8 := by decide
  exact UInt8.toBitVec_inj.mp (hbits sendSeq.toUInt8.toBitVec)

/-- The commands that `build_and_send_command` packs into a block are found as a block and
handled in their order, each with the same integers modulo `2^32` and the same buffers:
the handler is called, or the shutdown reported where the firmware is shut down, and a
handler that shuts it down ends the block.  There is no parser error of its own. -/
theorem commandDispatch_commands {fw : Firmware σ} {cmds : List HostCommand}
    {cps : List (CommandParser σ)} {msgs : List Bytes} (sendSeq : UInt64) (rest : Bytes)
    (hknown : List.Forall₂ (HostCommand.Known fw) cmds cps)
    (henc : List.Forall₂ HostCommand.EncodedAs cmds msgs)
    (hfits : msgs.flatten.length ≤ messagePayloadMax) :
    let block := frame (headerSeq sendSeq) msgs.flatten
    let buf := block ++ rest
    front buf = .block block.length ∧
      ∃ argss,
        List.Forall₂ (fun c args => handlerArgs buf (c.fmt.params.map Param.type) args =
          some (c.args.map Value.wrap)) cmds argss ∧
        (∀ s, commandDispatch fw buf block.length s = runHandlers fw buf (cps.zip argss) s) ∧
        ∀ s, (∀ s, fw.irqPoll s ≠ .error parserError) →
          (∀ call ∈ cps.zip argss, ∀ s, call.1.func call.2 buf s ≠ .error parserError) →
          commandDispatch fw buf block.length s ≠ .error parserError := by
  intro block buf
  obtain ⟨trailer, hblock, htrailer⟩ : ∃ trailer : Bytes,
      block.drop messageHeaderSize = msgs.flatten ++ trailer ∧
        trailer.length = messageTrailerSize := ⟨_, rfl, rfl⟩
  have hlen : block.length = messageHeaderSize + msgs.flatten.length + messageTrailerSize :=
    length_frame _ _
  have hheader : messageHeaderSize = 2 := rfl
  have htrailer3 : messageTrailerSize = 3 := rfl
  have hpayload : messagePayloadMax = 59 := rfl
  have hstart : buf.drop messageHeaderSize = msgs.flatten ++ (trailer ++ rest) := by
    rw [List.drop_append_of_le_length (by omega), hblock, List.append_assoc]
  have hend : buf.drop (block.length - messageTrailerSize) = trailer ++ rest := by
    rw [show block.length - messageTrailerSize = messageHeaderSize + msgs.flatten.length by omega,
      ← List.drop_drop, hstart, List.drop_left]
  have hbuf : buf.length = block.length + rest.length := List.length_append
  have hcmds : cmds.length ≤ buf.length := by
    have hle := length_le_flatten hknown henc hfits
    omega
  have hsuffix : msgs.flatten ++ (trailer ++ rest) <:+ buf := by
    rw [← hstart]
    exact List.drop_suffix _ _
  have hshort : buf.length < (trailer ++ rest).length + 2 ^ 32 := by
    have htotal : (trailer ++ rest).length = trailer.length + rest.length := List.length_append
    omega
  obtain ⟨argss, hargss, hrun⟩ :=
    dispatchLoop_commands hknown henc hfits hsuffix rfl hshort hcmds
  have heq : ∀ s, commandDispatch fw buf block.length s =
      runHandlers fw buf (cps.zip argss) s := by
    intro s
    rw [commandDispatch, hend, hstart]
    exact hrun s
  refine ⟨front_frame (headerSeq_isSeq sendSeq) hfits rest, argss, hargss, heq, ?_⟩
  intro s hpoll hfunc
  rw [heq]
  exact runHandlers_ne_parserError hpoll hfunc s

/-! ## A firmware that records its calls -/

/-- The formats `set_value oid=%c value=%i`, `write data=%*s` and `log text=%s`. -/
def recorderFormats : List MessageFormat :=
  [⟨1, "set_value", [⟨"oid", .byte, none⟩, ⟨"value", .int32, none⟩]⟩,
    ⟨2, "write", [⟨"data", .buffer, none⟩]⟩,
    ⟨3, "log", [⟨"text", .string, none⟩]⟩]

/-- A table entry whose handler records its arguments. -/
def recorderParser (fmt : MessageFormat) : CommandParser (List (List UInt32)) :=
  buildParser (fmt.params.map Param.type) false fun args _ s => .ok (s ++ [args])

/-- A firmware with these commands, which is never shut down. -/
def recorder : Firmware (List (List UInt32)) where
  commandIndex := ⟨0, false, [], fun _ _ s => .ok s⟩ :: recorderFormats.map recorderParser
  isShutdown := fun _ => false
  reportShutdown := id
  irqPoll := .ok

/-- `set_value oid=5 value=-3` and `write data=0102`, by either encoder. -/
def recorderCommands : List HostCommand :=
  [⟨⟨1, "set_value", [⟨"oid", .byte, none⟩, ⟨"value", .int32, none⟩]⟩, [.int 5, .int (-3)]⟩,
    ⟨⟨2, "write", [⟨"data", .buffer, none⟩]⟩, [.bytes [1, 2]]⟩]

/-- The two commands in one block. -/
theorem commandDispatch_commands_recorder :
    front (frame (headerSeq 1) [1, 5, 125, 2, 2, 1, 2] ++ []) = .block 12 ∧
      commandDispatch recorder (frame (headerSeq 1) [1, 5, 125, 2, 2, 1, 2]) 12 [] =
        .ok [[5, 4294967293], [2, 7]] := by
  have hknown : List.Forall₂ (HostCommand.Known recorder) recorderCommands
      (recorderCommands.map fun c => recorderParser c.fmt) := by
    refine .cons ⟨by decide, by decide, rfl, rfl, ?_⟩ (.cons ⟨by decide, by decide, rfl, rfl, ?_⟩ .nil)
    · exact .cons (.int rfl (by decide) (by decide)) (.cons (.int rfl (by decide) (by decide)) .nil)
    · exact .cons .buffer .nil
  have henc : List.Forall₂ HostCommand.EncodedAs recorderCommands [[1, 5, 125], [2, 2, 1, 2]] :=
    .cons (.allocAndEncode (by decide) (by decide +kernel))
      (.cons (.encode (by decide +kernel)) .nil)
  exact ⟨(commandDispatch_commands 1 [] hknown henc (by decide)).1, rfl⟩

/-- `log text=hi` is a format of the host, but `command_parsef` has no case for `%s`. -/
theorem commandDispatch_string :
    MessageFormat.encode ⟨3, "log", [⟨"text", .string, none⟩]⟩ [.bytes [104, 105]] =
        some [3, 2, 104, 105] ∧
      commandDispatch recorder (frame (headerSeq 1) [3, 2, 104, 105]) 9 [] =
        .error parserError := by
  exact ⟨by decide +kernel, rfl⟩

end FlsunT1.Wire
