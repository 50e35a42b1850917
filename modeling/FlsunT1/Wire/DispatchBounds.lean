/-
  Wire/DispatchBounds.lean --- which bytes of a block the handlers' arguments come from.

  Source: `command_parsef` and `command_dispatch`, klipper/src/command.c.

  The end of the payload is compared with the pointer before each parameter is parsed,
  and not after the last one.  An integer that the payload ends in, or ends before, is
  taken from the trailer of the block, whose last byte ends every integer.
-/
import FlsunT1.Wire.Dispatch

set_option autoImplicit false

namespace FlsunT1.Wire

open FlsunT1.Library

variable {σ : Type}

/-! ## The calls of a dispatch -/

/-- A call of a handler: its entry, its arguments, and where their parsing ended. -/
structure HandlerCall (σ : Type) where
  parser : CommandParser σ
  args : List UInt32
  rest : Bytes

/-- How a dispatch ends: behind the last command, by its own stop, or by that of the code it
calls. -/
inductive DispatchEnd (σ : Type)
  | done (s : σ)
  | parsing (e : Stop)
  | handling (e : Stop)

def DispatchEnd.result : DispatchEnd σ → Except Stop σ
  | .done s => .ok s
  | .parsing e | .handling e => .error e

/-- The call that `dispatchOne` makes, if it makes one. -/
def callOf (fw : Firmware σ) (cp : CommandParser σ) (args : List UInt32) (rest : Bytes) (s : σ) :
    List (HandlerCall σ) :=
  if fw.isShutdown s ∧ ¬cp.inShutdown then []
  else
    match fw.irqPoll s with
    | .ok _ => [⟨cp, args, rest⟩]
    | .error _ => []

/-- The loop of `command_dispatch` with the calls it makes. -/
def dispatchCalls (fw : Firmware σ) (buf msgend : Bytes) :
    Nat → Bytes → σ → List (HandlerCall σ) × DispatchEnd σ
  | 0, _, s => ([], .done s)
  | rounds + 1, p, s =>
      if p.length ≤ msgend.length then ([], .done s)
      else match p with
        | [] => ([], .parsing .overrun)
        | cmdid :: p =>
            match commandLookupParser fw cmdid with
            | .error e => ([], .parsing e)
            | .ok cp =>
                match commandParsef buf p msgend cp.paramTypes with
                | .error e => ([], .parsing e)
                | .ok (args, p) =>
                    match dispatchOne fw cp args buf s with
                    | .error e => (callOf fw cp args p s, .handling e)
                    | .ok s' =>
                        let later := dispatchCalls fw buf msgend rounds p s'
                        (callOf fw cp args p s ++ later.1, later.2)

/-- Noting the calls changes nothing. -/
theorem dispatchCalls_result (fw : Firmware σ) (buf msgend : Bytes) (rounds : Nat) (p : Bytes)
    (s : σ) : (dispatchCalls fw buf msgend rounds p s).2.result =
      dispatchLoop fw buf msgend rounds p s := by
  induction rounds generalizing p s with
  | zero => rfl
  | succ rounds ih =>
    unfold dispatchCalls dispatchLoop
    split
    · rfl
    · cases p with
      | nil => rfl
      | cons cmdid p =>
        cases hlookup : commandLookupParser fw cmdid with
        | error e =>
          simp only [hlookup, bind, Except.bind]
          rfl
        | ok cp =>
          cases hparse : commandParsef buf p msgend cp.paramTypes with
          | error e =>
            simp only [hlookup, hparse, bind, Except.bind]
            rfl
          | ok r =>
            obtain ⟨args, rest⟩ := r
            cases hone : dispatchOne fw cp args buf s with
            | error e =>
              simp only [hlookup, hparse, hone, bind, Except.bind]
              rfl
            | ok s' =>
              simp only [hlookup, hparse, hone, bind, Except.bind]
              exact ih rest s'

/-- The calls of `command_dispatch` on a block, and its end. -/
def commandCalls (fw : Firmware σ) (block : Bytes) (s : σ) :
    List (HandlerCall σ) × DispatchEnd σ :=
  dispatchCalls fw block (block.drop (block.length - messageTrailerSize)) block.length
    (block.drop messageHeaderSize) s

/-- The block is refused, or the bytes of all arguments are in its payload; and nothing is
read behind its end. -/
structure RefusesCut (fw : Firmware σ) (block : Bytes) (s : σ) : Prop where
  inside : (∃ msg, commandDispatch fw block block.length s = .error (.shutdown msg)) ∨
    ∀ call ∈ (commandCalls fw block s).1, messageTrailerSize ≤ call.rest.length
  reads : (commandCalls fw block s).2 ≠ .parsing .overrun

/-! ## The bytes of a command -/

/-- `command_lookup_parser`, on the parameter types of the table. -/
def typesOf (index : List (List ParamType)) (cmdid : UInt8) : Option (List ParamType) :=
  if cmdid = 0 then none else index[cmdid.toNat]?

/-- The bytes of one parameter: all but the last of an integer have the highest bit set. -/
inductive ParamCode : ParamType → Bytes → Prop
  | int {t : ParamType} {front : Bytes} {last : UInt8} (hint : t.isInt = true)
      (hfront : ∀ c ∈ front, Vlq.More c) (hlast : ¬Vlq.More last) : ParamCode t (front ++ [last])
  | buffer {len : UInt8} {b : Bytes} (hlen : b.length = len.toNat) : ParamCode .buffer (len :: b)

/-- The bytes of parameters. -/
inductive ArgsCode : List ParamType → Bytes → Prop
  | nil : ArgsCode [] []
  | cons {t : ParamType} {ts : List ParamType} {e rest : Bytes} (h : ParamCode t e)
      (hrest : ArgsCode ts rest) : ArgsCode (t :: ts) (e ++ rest)

/-- Behind some commands, the payload ends in the last parameter of a command, or before it,
and the parameter is an integer. -/
inductive EndsInInteger (index : List (List ParamType)) : Bytes → Prop
  | last {cmdid : UInt8} {ts : List ParamType} {t : ParamType} {e cont : Bytes}
      (hid : typesOf index cmdid = some (ts ++ [t])) (hargs : ArgsCode ts e)
      (hint : t.isInt = true) (hcont : ∀ c ∈ cont, Vlq.More c) :
      EndsInInteger index (cmdid :: (e ++ cont))
  | next {cmdid : UInt8} {ts : List ParamType} {e rest : Bytes}
      (hid : typesOf index cmdid = some ts) (hargs : ArgsCode ts e)
      (hrest : EndsInInteger index rest) : EndsInInteger index (cmdid :: (e ++ rest))

/-- The payload of a block. -/
def payload (block : Bytes) : Bytes :=
  (block.drop messageHeaderSize).take (block.length - messageMin)

/-! ## Parsing up to the trailer -/

theorem parseIntLoop_front {front : Bytes} (hfront : ∀ c ∈ front, Vlq.More c) {last : UInt8}
    (hlast : ¬Vlq.More last) (v : UInt32) (rest : Bytes) :
    ∃ w, parseIntLoop v (front ++ last :: rest) = some (w, rest) := by
  induction front generalizing v with
  | nil =>
    rw [List.nil_append, parseIntLoop]
    simp only [and_0x80, hlast, if_false]
    exact ⟨_, rfl⟩
  | cons c front ih =>
    have hc : Vlq.More c := hfront c List.mem_cons_self
    rw [List.cons_append, parseIntLoop]
    simp only [and_0x80, hc, if_true]
    exact ih (fun d hd => hfront d (List.mem_cons_of_mem _ hd)) _

theorem parseInt_front {front : Bytes} (hfront : ∀ c ∈ front, Vlq.More c) {last : UInt8}
    (hlast : ¬Vlq.More last) (rest : Bytes) :
    ∃ w, parseInt (front ++ last :: rest) = some (w, rest) := by
  cases front with
  | nil =>
    rw [List.nil_append, parseInt]
    simp only [and_0x80, hlast, if_false]
    exact ⟨_, rfl⟩
  | cons c front =>
    have hc : Vlq.More c := hfront c List.mem_cons_self
    rw [List.cons_append, parseInt]
    simp only [and_0x80, hc, if_true]
    exact parseIntLoop_front (fun d hd => hfront d (List.mem_cons_of_mem _ hd)) hlast _ rest

theorem more_or_split (p : Bytes) : (∀ c ∈ p, Vlq.More c) ∨
    ∃ front last rest, p = front ++ last :: rest ∧ (∀ c ∈ front, Vlq.More c) ∧ ¬Vlq.More last := by
  induction p with
  | nil => exact Or.inl fun c hc => absurd hc List.not_mem_nil
  | cons c p ih =>
    cases hdec : decide (Vlq.More c) with
    | false =>
      exact Or.inr ⟨[], c, p, rfl, fun d hd => absurd hd List.not_mem_nil, of_decide_eq_false hdec⟩
    | true =>
      have hc : Vlq.More c := of_decide_eq_true hdec
      rcases ih with hall | ⟨front, last, rest, rfl, hfront, hlast⟩
      · exact Or.inl (List.forall_mem_cons.mpr ⟨hc, hall⟩)
      · exact Or.inr ⟨c :: front, last, rest, rfl, List.forall_mem_cons.mpr ⟨hc, hfront⟩, hlast⟩

section Trailer

variable {buf tail : Bytes}

theorem parseInt_trailer (htail : ∃ c ∈ tail, ¬Vlq.More c) {cont : Bytes}
    (hcont : ∀ c ∈ cont, Vlq.More c) :
    ∃ v rest, parseInt (cont ++ tail) = some (v, rest) ∧ rest.length < tail.length := by
  rcases more_or_split tail with hall | ⟨front, last, rest, rfl, hfront, hlast⟩
  · obtain ⟨c, hc, hnot⟩ := htail
    exact absurd (hall c hc) hnot
  · have hboth : ∀ c ∈ cont ++ front, Vlq.More c := by
      intro c hc
      rcases List.mem_append.mp hc with hc | hc
      · exact hcont c hc
      · exact hfront c hc
    obtain ⟨v, hv⟩ := parseInt_front hboth hlast rest
    rw [List.append_assoc] at hv
    refine ⟨v, rest, hv, ?_⟩
    rw [List.length_append, List.length_cons]
    omega

theorem parsefParam_int {t : ParamType} (hint : t.isInt = true) (p maxend : Bytes) :
    parsefParam buf p maxend t =
      match parseInt p with
      | none => .error .overrun
      | some (v, p) => .ok ([v], p) := by
  cases t with
  | uint32 | int32 | uint16 | int16 | byte => rfl
  | string | progmemBuffer | buffer => cases hint

theorem parsefParam_code (buf tail : Bytes) {t : ParamType} {e : Bytes} (h : ParamCode t e)
    (rest : Bytes) :
    ∃ args, parsefParam buf (e ++ rest ++ tail) tail t = .ok (args, rest ++ tail) := by
  cases h with
  | @int _ front last hint hfront hlast =>
    obtain ⟨v, hv⟩ := parseInt_front hfront hlast (rest ++ tail)
    have hshape : front ++ [last] ++ rest ++ tail = front ++ last :: (rest ++ tail) := by
      simp only [List.append_assoc, List.cons_append, List.nil_append]
    rw [parsefParam_int hint, hshape, hv]
    exact ⟨[v], rfl⟩
  | @buffer len b hlen =>
    have hlong : ¬(b ++ rest ++ tail).length < tail.length + len.toNat := by
      rw [List.length_append, List.length_append]
      omega
    refine ⟨[len.toUInt32, commandEncodePtr buf (b ++ rest ++ tail)], ?_⟩
    simp only [List.cons_append, parsefParam, hlong, if_false]
    rw [← hlen, List.append_assoc, List.drop_left]

theorem commandParsef_code (buf tail : Bytes) {ts : List ParamType} {e : Bytes} (h : ArgsCode ts e)
    (rest : Bytes) :
    ∃ args, commandParsef buf (e ++ rest ++ tail) tail ts = .ok (args, rest ++ tail) := by
  induction h with
  | nil => exact ⟨[], rfl⟩
  | @cons t ts e e' h hrest ih =>
    obtain ⟨args, hargs⟩ := parsefParam_code buf tail h (e' ++ rest)
    obtain ⟨args', hargs'⟩ := ih
    have hlong : ¬(e ++ e' ++ rest ++ tail).length < tail.length := by
      rw [List.length_append]
      omega
    rw [List.append_assoc e, commandParsef, if_neg (by rwa [← List.append_assoc e]), hargs]
    simp only [bind, Except.bind, hargs']
    exact ⟨_, rfl⟩

/-- The last parameter is an integer that the payload ends in. -/
theorem commandParsef_trailer (buf : Bytes) (htail : ∃ c ∈ tail, ¬Vlq.More c) {ts : List ParamType}
    {t : ParamType} {e cont : Bytes} (h : ArgsCode ts e) (hint : t.isInt = true)
    (hcont : ∀ c ∈ cont, Vlq.More c) :
    ∃ args rest, commandParsef buf (e ++ cont ++ tail) tail (ts ++ [t]) = .ok (args, rest) ∧
      rest.length < tail.length := by
  induction h with
  | nil =>
    obtain ⟨v, rest, hv, hlt⟩ := parseInt_trailer htail hcont
    have hlong : ¬(cont ++ tail).length < tail.length := by
      rw [List.length_append]
      omega
    refine ⟨[v], rest, ?_, hlt⟩
    rw [List.nil_append, List.nil_append, commandParsef, if_neg hlong, parsefParam_int hint, hv]
    rfl
  | @cons t' ts e e' h hrest ih =>
    obtain ⟨args, hargs⟩ := parsefParam_code buf tail h (e' ++ cont)
    obtain ⟨args', rest, hargs', hlt⟩ := ih
    have hlong : ¬(e ++ (e' ++ cont) ++ tail).length < tail.length := by
      rw [List.length_append]
      omega
    refine ⟨args ++ args', rest, ?_, hlt⟩
    rw [List.append_assoc e, List.cons_append, commandParsef, if_neg hlong, hargs]
    simp only [bind, Except.bind, hargs']
    rfl

/-- What parsing a parameter comes to: its bytes are in the payload, or there is an error, or
it is an integer that ends in the trailer. -/
inductive ParamParse (t : ParamType) (p tail : Bytes) : Except Stop (List UInt32 × Bytes) → Prop
  | inside {e rest : Bytes} {args : List UInt32} (heq : p = e ++ rest) (hcode : ParamCode t e) :
      ParamParse t p tail (.ok (args, rest ++ tail))
  | refused : ParamParse t p tail (.error parserError)
  | trailer {args : List UInt32} {rest : Bytes} (hint : t.isInt = true)
      (hmore : ∀ c ∈ p, Vlq.More c) (hlt : rest.length < tail.length) :
      ParamParse t p tail (.ok (args, rest))

theorem parsefParam_cases (buf : Bytes) (htail : ∃ c ∈ tail, ¬Vlq.More c) (t : ParamType) (p : Bytes) :
    ParamParse t p tail (parsefParam buf (p ++ tail) tail t) := by
  cases hint : t.isInt with
  | true =>
    rcases more_or_split p with hmore | ⟨front, last, rest, rfl, hfront, hlast⟩
    · obtain ⟨v, rest, hv, hlt⟩ := parseInt_trailer htail hmore
      rw [parsefParam_int hint, hv]
      exact .trailer hint hmore hlt
    · have hcode : ParamCode t (front ++ [last]) := .int hint hfront hlast
      have hshape : front ++ last :: rest = front ++ [last] ++ rest := by
        rw [List.append_assoc, List.singleton_append]
      obtain ⟨args, hargs⟩ := parsefParam_code buf tail hcode rest
      rw [hshape, hargs]
      exact .inside rfl hcode
  | false =>
    cases t with
    | uint32 | int32 | uint16 | int16 | byte => cases hint
    | string | progmemBuffer => exact .refused
    | buffer =>
      cases p with
      | nil =>
        cases tail with
        | nil =>
          obtain ⟨c, hc, -⟩ := htail
          cases hc
        | cons len tail =>
          have hshort : tail.length < (len :: tail).length + len.toNat := by
            rw [List.length_cons]
            omega
          simp only [List.nil_append, parsefParam, hshort, if_true]
          exact .refused
      | cons len p =>
        simp only [List.cons_append, parsefParam]
        split
        · exact .refused
        · rename_i hlong
          rw [List.length_append] at hlong
          have hcut : len.toNat ≤ p.length := by omega
          rw [List.drop_append_of_le_length hcut]
          have hcode : ParamCode .buffer (len :: p.take len.toNat) :=
            .buffer (List.length_take_of_le hcut)
          refine .inside ?_ hcode
          rw [List.cons_append, List.take_append_drop]

/-- What parsing the parameters of a command comes to. -/
inductive ArgsParse (ts : List ParamType) (p tail : Bytes) :
    Except Stop (List UInt32 × Bytes) → Prop
  | inside {e rest : Bytes} {args : List UInt32} (heq : p = e ++ rest) (hcode : ArgsCode ts e) :
      ArgsParse ts p tail (.ok (args, rest ++ tail))
  | refused : ArgsParse ts p tail (.error parserError)
  | trailer {ts' : List ParamType} {t : ParamType} {e cont : Bytes} {args : List UInt32}
      {rest : Bytes} (hts : ts = ts' ++ [t]) (heq : p = e ++ cont) (hcode : ArgsCode ts' e)
      (hint : t.isInt = true) (hmore : ∀ c ∈ cont, Vlq.More c) (hlt : rest.length < tail.length) :
      ArgsParse ts p tail (.ok (args, rest))

theorem commandParsef_cases (buf : Bytes) (htail : ∃ c ∈ tail, ¬Vlq.More c) (ts : List ParamType) (p : Bytes) :
    ArgsParse ts p tail (commandParsef buf (p ++ tail) tail ts) := by
  induction ts generalizing p with
  | nil => exact .inside (List.nil_append p).symm .nil
  | cons t ts ih =>
    have hlong : ¬(p ++ tail).length < tail.length := by
      rw [List.length_append]
      omega
    rw [commandParsef, if_neg hlong]
    have hparam := parsefParam_cases buf htail t p
    cases hr : parsefParam buf (p ++ tail) tail t with
    | error e =>
      rw [hr] at hparam
      cases hparam
      exact .refused
    | ok r =>
      rw [hr] at hparam
      simp only [bind, Except.bind]
      cases hparam with
      | @inside e rest args heq hcode =>
        have hargs := ih rest
        simp only
        cases hrest : commandParsef buf (rest ++ tail) tail ts with
        | error e =>
          rw [hrest] at hargs
          cases hargs
          exact .refused
        | ok r =>
          rw [hrest] at hargs
          cases hargs with
          | inside heq' hcode' =>
            refine .inside ?_ (.cons hcode hcode')
            rw [heq, heq', List.append_assoc]
          | trailer hts heq' hcode' hint hmore hlt =>
            refine .trailer ?_ ?_ (.cons hcode hcode') hint hmore hlt
            · rw [hts, List.cons_append]
            · rw [heq, heq', List.append_assoc]
      | @trailer args rest hint hmore hlt =>
        cases ts with
        | nil =>
          have hts : [t] = [] ++ [t] := rfl
          exact .trailer hts (List.nil_append p).symm .nil hint hmore hlt
        | cons t' ts =>
          simp only [commandParsef, hlt, if_true]
          exact .refused

end Trailer

/-! ## The calls of a block -/

section Calls

variable {index : List (List ParamType)} {fw : Firmware σ} {buf tail : Bytes}

theorem commandLookupParser_types (hindex : fw.commandIndex.map CommandParser.paramTypes = index)
    (cmdid : UInt8) :
    (∃ cp, commandLookupParser fw cmdid = .ok cp ∧ typesOf index cmdid = some cp.paramTypes) ∨
      (commandLookupParser fw cmdid = .error (.shutdown "Invalid command") ∧
        typesOf index cmdid = none) := by
  rw [commandLookupParser, typesOf, ← hindex, List.getElem?_map]
  cases hentry : fw.commandIndex[cmdid.toNat]? with
  | none =>
    refine Or.inr ⟨rfl, ?_⟩
    rw [Option.map_none, ite_self]
  | some cp =>
    simp only [Option.map_some]
    split
    · exact Or.inr ⟨rfl, rfl⟩
    · exact Or.inl ⟨cp, rfl, rfl⟩

theorem rest_of_mem_callOf {cp : CommandParser σ} {args : List UInt32} {rest : Bytes} {s : σ}
    {call : HandlerCall σ} (h : call ∈ callOf fw cp args rest s) : call.rest = rest := by
  unfold callOf at h
  split at h
  · cases h
  · split at h
    · rw [List.mem_singleton.mp h]
    · cases h

/-- The dispatch never reads behind the end of the block, and arguments from the trailer are
the end of the payload in an integer. -/
theorem dispatchCalls_bounded (buf : Bytes)
    (hindex : fw.commandIndex.map CommandParser.paramTypes = index)
    (htail : ∃ c ∈ tail, ¬Vlq.More c) (rounds : Nat) (p : Bytes) (s : σ) :
    (dispatchCalls fw buf tail rounds (p ++ tail) s).2 ≠ .parsing .overrun ∧
      (¬EndsInInteger index p → ∀ call ∈ (dispatchCalls fw buf tail rounds (p ++ tail) s).1,
        tail.length ≤ call.rest.length) := by
  have hdone : ∀ s' : σ, (([], .done s') : List (HandlerCall σ) × DispatchEnd σ).2 ≠
      .parsing .overrun := by
    intro s' h
    cases h
  induction rounds generalizing p s with
  | zero => exact ⟨hdone s, fun _ call hcall => absurd hcall List.not_mem_nil⟩
  | succ rounds ih =>
    unfold dispatchCalls
    cases p with
    | nil =>
      rw [List.nil_append, if_pos le_rfl]
      exact ⟨hdone s, fun _ call hcall => absurd hcall List.not_mem_nil⟩
    | cons cmdid p =>
      have hlong : ¬(cmdid :: p ++ tail).length ≤ tail.length := by
        rw [List.length_append, List.length_cons]
        omega
      rw [if_neg hlong]
      simp only [List.cons_append]
      rcases commandLookupParser_types hindex cmdid with ⟨cp, hcp, htypes⟩ | ⟨hcp, -⟩
      · simp only [hcp]
        have hargs := commandParsef_cases buf htail cp.paramTypes p
        cases hparse : commandParsef buf (p ++ tail) tail cp.paramTypes with
        | error e =>
          rw [hparse] at hargs
          cases hargs
          exact ⟨fun h => absurd h (by simp [parserError]), fun _ call hcall =>
            absurd hcall List.not_mem_nil⟩
        | ok r =>
          rw [hparse] at hargs
          cases hargs with
          | @inside e rest args heq hcode =>
            simp only
            have hcalls : ∀ call ∈ callOf fw cp args (rest ++ tail) s,
                tail.length ≤ call.rest.length := by
              intro call hcall
              rw [rest_of_mem_callOf hcall, List.length_append]
              omega
            cases hone : dispatchOne fw cp args buf s with
            | error e =>
              refine ⟨fun h => ?_, fun _ => hcalls⟩
              cases h
            | ok s' =>
              obtain ⟨hreads, hinside⟩ := ih rest s'
              refine ⟨hreads, fun hends call hcall => ?_⟩
              rcases List.mem_append.mp hcall with hcall | hcall
              · exact hcalls call hcall
              · refine hinside (fun hlater => hends ?_) call hcall
                rw [heq]
                exact .next htypes hcode hlater
          | @trailer ts' t e cont args rest hts heq hcode hint hmore hlt =>
            simp only
            have hends : EndsInInteger index (cmdid :: p) := by
              rw [heq]
              exact .last (hts ▸ htypes) hcode hint hmore
            refine ⟨?_, fun hnot => absurd hends hnot⟩
            cases hone : dispatchOne fw cp args buf s with
            | error e =>
              intro h
              cases h
            | ok s' =>
              -- behind the trailer's first byte there is no further round
              simp only
              cases rounds with
              | zero => exact hdone s'
              | succ rounds =>
                unfold dispatchCalls
                rw [if_pos hlt.le]
                exact hdone s'
      · simp only [hcp]
        exact ⟨fun h => by simp at h, fun _ call hcall => absurd hcall List.not_mem_nil⟩

/-- A firmware with the table, whose handlers return. -/
def returning (index : List (List ParamType)) : Firmware Unit where
  commandIndex := index.map fun ts => ⟨0, false, ts, fun _ _ s => .ok s⟩
  isShutdown := fun _ => false
  reportShutdown := id
  irqPoll := .ok

theorem returning_index : (returning index).commandIndex.map CommandParser.paramTypes = index := by
  rw [returning, List.map_map]
  exact List.map_id index

/-- Where the handlers return, the integer that the payload ends in is handed over. -/
theorem dispatchCalls_trailer (buf : Bytes) (htail : ∃ c ∈ tail, ¬Vlq.More c) {p : Bytes}
    (h : EndsInInteger index p) {rounds : Nat} (hrounds : p.length ≤ rounds) :
    (∃ call ∈ (dispatchCalls (returning index) buf tail rounds (p ++ tail) ()).1,
      call.rest.length < tail.length) ∧
      (dispatchCalls (returning index) buf tail rounds (p ++ tail) ()).2 = .done () := by
  have hlookup : ∀ {cmdid : UInt8} {ts : List ParamType}, typesOf index cmdid = some ts →
      ∃ cp, commandLookupParser (returning index) cmdid = .ok cp ∧ cp.paramTypes = ts ∧
        ∀ args, dispatchOne (returning index) cp args buf () = .ok () := by
    intro cmdid ts htypes
    rw [typesOf] at htypes
    split at htypes
    · cases htypes
    · rename_i hne
      refine ⟨⟨0, false, ts, fun _ _ s => .ok s⟩, ?_, rfl, fun args => ?_⟩
      · rw [commandLookupParser, returning, List.getElem?_map, htypes, Option.map_some]
        simp only [hne, if_false]
      · unfold dispatchOne
        rw [if_neg (fun h => Bool.false_ne_true h.1)]
        rfl
  have hcall : ∀ (cp : CommandParser Unit) (args : List UInt32) (rest : Bytes),
      callOf (returning index) cp args rest () = [⟨cp, args, rest⟩] := fun _ _ _ => rfl
  induction h generalizing rounds with
  | @last cmdid ts t e cont hid hargs hint hcont =>
    obtain ⟨rounds, rfl⟩ : ∃ n, rounds = n + 1 := ⟨rounds - 1, by
      rw [List.length_cons] at hrounds
      omega⟩
    obtain ⟨cp, hcp, hts, hone⟩ := hlookup hid
    obtain ⟨args, rest, hparse, hlt⟩ := commandParsef_trailer buf htail hargs hint hcont
    have hlong : ¬(cmdid :: (e ++ cont) ++ tail).length ≤ tail.length := by
      rw [List.length_append, List.length_cons]
      omega
    have hend : dispatchCalls (returning index) buf tail rounds rest () = ([], .done ()) := by
      cases rounds with
      | zero => rfl
      | succ rounds =>
        unfold dispatchCalls
        rw [if_pos hlt.le]
    unfold dispatchCalls
    rw [if_neg hlong]
    simp only [List.cons_append, hcp, hts, hparse, hone, hend, hcall, List.append_nil]
    exact ⟨⟨_, List.mem_singleton_self _, hlt⟩, trivial⟩
  | @next cmdid ts e p hid hargs hrest ih =>
    obtain ⟨rounds, rfl⟩ : ∃ n, rounds = n + 1 := ⟨rounds - 1, by
      rw [List.length_cons] at hrounds
      omega⟩
    obtain ⟨cp, hcp, hts, hone⟩ := hlookup hid
    obtain ⟨args, hparse⟩ := commandParsef_code buf tail hargs p
    have hlong : ¬(cmdid :: (e ++ p) ++ tail).length ≤ tail.length := by
      rw [List.length_append, List.length_cons]
      omega
    have hshorter : p.length ≤ rounds := by
      rw [List.length_cons, List.length_append] at hrounds
      omega
    obtain ⟨⟨call, hmem, hlt⟩, hdone⟩ := ih hshorter
    unfold dispatchCalls
    rw [if_neg hlong]
    simp only [List.cons_append, hcp, hts, hparse, hone]
    exact ⟨⟨call, List.mem_append_right _ hmem, hlt⟩, hdone⟩

end Calls

/-! ## Blocks -/

/-- A block is its header, its payload and its trailer, and ends with the SYNC byte. -/
theorem block_parts {block : Bytes} (h : front block = .block block.length) :
    block.drop messageHeaderSize =
        payload block ++ block.drop (block.length - messageTrailerSize) ∧
      (block.drop (block.length - messageTrailerSize)).length = messageTrailerSize ∧
      ∃ c ∈ block.drop (block.length - messageTrailerSize), ¬Vlq.More c := by
  obtain ⟨hmin, -, -⟩ := front_block h
  have hsizes : messageHeaderSize = 2 ∧ messageTrailerSize = 3 ∧ messageMin = 5 ∧
      messageTrailerSync = 1 := ⟨rfl, rfl, rfl, rfl⟩
  refine ⟨?_, ?_, ?_⟩
  · have hdrop : block.drop (block.length - messageTrailerSize) =
        (block.drop messageHeaderSize).drop (block.length - messageMin) := by
      rw [List.drop_drop]
      congr 1
      omega
    rw [payload, hdrop, List.take_append_drop]
  · rw [List.length_drop]
    omega
  · have hsync : byteAt block (block.length - messageTrailerSync) = messageSync := by
      simp only [front] at h
      split_ifs at h with h1 h2 h3 h4 h5
      rw [Front.block.injEq] at h
      rw [h] at h5
      exact not_not.mp h5
    refine ⟨messageSync, ?_, by decide⟩
    have hlast : block.length - messageTrailerSync < block.length := by omega
    rw [byteAt, List.getD_eq_getElem?_getD, List.getElem?_eq_getElem hlast,
      Option.getD_some] at hsync
    rw [List.mem_iff_getElem]
    refine ⟨2, ?_, ?_⟩
    · rw [List.length_drop]
      omega
    · rw [List.getElem_drop, ← hsync]
      congr 1
      omega

/-- **Which truncated commands are refused.**  Under a table of commands, every firmware
refuses a block that is cut short, or takes all arguments from its payload, if and only if the
payload does not end in or before an integer that is the last parameter of its command. -/
theorem refusesCut_iff (index : List (List ParamType)) {block : Bytes}
    (h : front block = .block block.length) :
    (∀ (σ : Type) (fw : Firmware σ) (s : σ), fw.commandIndex.map CommandParser.paramTypes = index →
      RefusesCut fw block s) ↔ ¬EndsInInteger index (payload block) := by
  obtain ⟨hparts, hsize, hends⟩ := block_parts h
  constructor
  · intro hrefuses hcut
    obtain ⟨hinside, -⟩ := hrefuses Unit (returning index) () returning_index
    have hrounds : (payload block).length ≤ block.length :=
      (List.length_take_le _ _).trans (Nat.sub_le _ _)
    obtain ⟨⟨call, hcall, hlt⟩, hdone⟩ := dispatchCalls_trailer block hends hcut hrounds
    rw [← hparts] at hcall hdone
    rcases hinside with ⟨msg, hshutdown⟩ | hinside
    · rw [commandDispatch, ← dispatchCalls_result, hdone] at hshutdown
      cases hshutdown
    · have hin := hinside call hcall
      omega
  · intro hends' σ fw s hindex
    have hbounded := dispatchCalls_bounded block hindex hends block.length (payload block) s
    rw [← hparts] at hbounded
    refine ⟨Or.inr fun call hcall => ?_, hbounded.1⟩
    rw [← hsize]
    exact hbounded.2 hends' call hcall

/-- A table with one command, of one integer. -/
def oneInteger : List (List ParamType) := [[], [.uint32]]

/-- The command with its integer. -/
theorem refusesCut_iff_whole :
    (∀ (σ : Type) (fw : Firmware σ) (s : σ),
      fw.commandIndex.map CommandParser.paramTypes = oneInteger →
        RefusesCut fw (frame (headerSeq 1) [1, 5]) s) ↔
      ¬EndsInInteger oneInteger (payload (frame (headerSeq 1) [1, 5])) :=
  refusesCut_iff oneInteger (by decide +kernel)

/-- Without its integer the command is handed the bytes of the checksum. -/
theorem checksum_handed_over :
    front (frame (headerSeq 1) [1]) = .block (frame (headerSeq 1) [1]).length ∧
      ¬RefusesCut (returning oneInteger) (frame (headerSeq 1) [1]) () := by
  refine ⟨by decide +kernel, fun ⟨hinside, _⟩ => ?_⟩
  have hcalls : (commandCalls (returning oneInteger) (frame (headerSeq 1) [1]) ()).1.all
      (fun call => decide (messageTrailerSize ≤ call.rest.length)) = false := by decide +kernel
  rcases hinside with ⟨msg, hshutdown⟩ | hinside
  · cases hshutdown
  · rw [List.all_eq_true.mpr fun call hcall => decide_eq_true (hinside call hcall)] at hcalls
    cases hcalls

end FlsunT1.Wire
